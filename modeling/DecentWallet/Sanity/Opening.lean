import DecentWallet.Sanity.Operations

/-! How sessions come to be: what `open`, `import_container`, `migrate_container` and the two ways of creating a
wallet leave when they return, and the bytes that `open` accepts. -/

namespace DecentWallet

open Raised Prog

variable {σ : Type} {C : Crypto} {M : Machine σ}

/-! ### Accepted bytes -/

/-- `data` unlocks with the password, to the data key `dek` and the material `m`; its size is not looked at. -/
structure Unlocks (C : Crypto) (data : Bytes) (password : Str) (c : Container) (dek : Bytes) (m : SecretMaterial) :
    Prop where
  parse : parseContainerBody C data currentFormatVersion = .ok c
  unwrap : unwrapDek C c password currentFormatVersion = .ok dek
  content : ∃ stored, decodePayload C c dek currentFormatVersion = .ok stored ∧ installSecretMaterial C stored = .ok m

theorem boxes_of_parse {data : Bytes} {v : ℤ} {c : Container} (h : parseContainerBody C data v = .ok c) :
    c.wrap.Ok ∧ c.payload.Ok ∧ ∃ salt, b64Decode c.kdf.salt (some saltLength) = .ok salt := by
  simp only [parseContainerBody, parseKdf, bind_eq_ok, reject_eq_ok, pure_eq_ok, b64Text_eq_ok] at h
  obtain ⟨j, -, _, -, _, -, version, -, _, -, kdf, ⟨_, -, _, -, salt, ⟨-, hsalt⟩, rfl⟩, wrap, hwrap, payload,
    hpayload, rfl⟩ := h
  exact ⟨ok_of_parseBox hwrap, ok_of_parseBox hpayload, hsalt⟩

theorem Unlocks.stores {data : Bytes} {password : Str} {c : Container} {dek : Bytes} {m : SecretMaterial}
    (h : Unlocks C data password c dek m) : c.Stores C dek m :=
  ⟨(boxes_of_parse h.parse).1, (boxes_of_parse h.parse).2.1, h.content⟩

theorem parseContainer_eq_ok {data : Bytes} {v : ℤ} {c : Container} :
    parseContainer C data v = .ok c ↔ data.length ≤ maxContainerBytes ∧ parseContainerBody C data v = .ok c := by
  simp only [parseContainer, bind_eq_ok, reject_eq_ok, not_lt]
  constructor
  · intro h
    obtain ⟨_, hlen, hbody⟩ := h
    exact ⟨hlen, hbody⟩
  · intro h
    exact ⟨(), h.1, h.2⟩

/-- The reader's cut at one byte over the limit changes nothing. -/
theorem parseContainer_take (data : Bytes) (v : ℤ) :
    parseContainer C (data.take (maxContainerBytes + 1)) v = parseContainer C data v := by
  by_cases h : data.length ≤ maxContainerBytes
  · rw [List.take_of_length_le (by omega)]
  · have h1 : maxContainerBytes < data.length := by omega
    have h2 : maxContainerBytes < (data.take (maxContainerBytes + 1)).length := by
      rw [List.length_take]
      omega
    simp only [parseContainer, reject, if_pos h1, if_pos h2]
    rfl

/-- The bytes of a container that stores `m` unlock with a password that unwraps its key. -/
theorem unlocks_serialize (hC : C.Correct) {c : Container} {salt data dek : Bytes} {password : Str} {m : SecretMaterial}
    (hw : c.Written salt) (hs : c.Stores C dek m) (hdata : serialize c = .ok data)
    (hunwrap : unwrapDek C c password currentFormatVersion = .ok dek) : Unlocks C data password c dek m :=
  ⟨parseContainerBody_serialize hC hw hdata, hunwrap, hs.content⟩

theorem unlockEnvelope_of_unlocks {data : Bytes} {password : Str} {c : Container} {dek : Bytes} {m : SecretMaterial}
    (h : Unlocks C data password c dek m) : ∃ stored,
      unlockEnvelope C c password currentFormatVersion = .ok (dek, stored) ∧
      installSecretMaterial C stored = .ok m := by
  obtain ⟨stored, hdecode, hinstall⟩ := h.content
  exact ⟨stored, unlockEnvelope_eq_ok.2 ⟨h.unwrap, hdecode⟩, hinstall⟩

/-! ### New sessions -/

/-- A new session with the container `c`, and nothing else but the file at `path`. -/
structure Begun (h h' : Host σ) (j : ℕ) (path : Path) (c : Container) (dek : Bytes)
    (m : SecretMaterial) : Prop where
  index : j = h.nextSession
  next : h'.nextSession = h.nextSession + 1
  others : ∀ k, k ≠ j → h'.sessions k = h.sessions k
  location : (h'.sessions j).path = path
  key : (h'.sessions j).dek = some dek
  envelope : (h'.sessions j).envelope = some c
  material : (h'.sessions j).material = m
  capabilities : (h'.sessions j).capabilities = []
  files : ∀ p, p ≠ path → h'.dataAt p = h.dataAt p
  log : h'.world.log = h.world.log
  latches : h'.world.latches = h.world.latches
  consumed : h'.world.consumed = h.world.consumed
  fresh : h'.world.fresh = h.world.fresh
  signers : h'.signers = h.signers

section

variable {path : Path} {h h' : Host σ} {c : Container} {dek : Bytes} {minutes : ℤ} {j : ℕ}

/-- Storage calls on the file of the new session, before and after. -/
theorem Begun.of_only {h h0 h1 h' : Host σ} {m : SecretMaterial} (ho : Begun h0 h1 j path c dek m)
    (hbefore : OnlyFile path h h0) (hafter : OnlyFile path h1 h') : Begun h h' j path c dek m where
  index := by rw [ho.index, hbefore.nextSession]
  next := by rw [hafter.nextSession, ho.next, hbefore.nextSession]
  others := fun k hk => by rw [hafter.sessions, ho.others k hk, hbefore.sessions]
  location := by rw [hafter.sessions, ho.location]
  key := by rw [hafter.sessions, ho.key]
  envelope := by rw [hafter.sessions, ho.envelope]
  material := by rw [hafter.sessions, ho.material]
  capabilities := by rw [hafter.sessions, ho.capabilities]
  files := fun p hp => by
    have h1' : h'.dataAt p = h1.dataAt p := by rw [Host.dataAt, hafter.files p hp, Host.dataAt]
    have h0' : h0.dataAt p = h.dataAt p := by rw [Host.dataAt, hbefore.files p hp, Host.dataAt]
    rw [h1', ho.files p hp, h0']
  log := by rw [hafter.log, ho.log, hbefore.log]
  latches := by rw [hafter.latches, ho.latches, hbefore.latches]
  consumed := by rw [hafter.consumed, ho.consumed, hbefore.consumed]
  fresh := by rw [hafter.fresh, ho.fresh, hbefore.fresh]
  signers := by rw [hafter.signers, ho.signers, hbefore.signers]

theorem Begun.holds {m : SecretMaterial} (hb : Begun h h' j path c dek m) (hs : c.Stores C dek m)
    (hsalt : ∃ salt, b64Decode c.kdf.salt (some saltLength) = .ok salt) : (h'.sessions j).Holds C c dek where
  envelope := hb.envelope
  key := hb.key
  salt := hsalt
  stores := by
    rw [hb.material]
    exact hs

/-- The host with a new session. -/
def Host.begin (h : Host σ) (s : Session) : Host σ :=
  { h with nextSession := h.nextSession + 1, sessions := Function.update h.sessions h.nextSession s }

theorem initSession_eq {stored : Payload} {m : SecretMaterial} (hm : installSecretMaterial C stored = .ok m)
    (h : Host σ) : initSession C M path dek stored c minutes h = (.ok h.nextSession,
      (h.setState (M.monotonic h.world.state).2).begin
        { path, dek := some dek, payload := m.payload, seed := m.seed, pendingSeed := m.pendingSeed,
          envelope := some c, capabilities := [], inactivitySeconds := minutes * 60,
          lastActivity := (M.monotonic h.world.state).1 }) := by
  simp only [initSession, hm]
  rfl

theorem initSession_begun {stored : Payload} {m : SecretMaterial} (hm : installSecretMaterial C stored = .ok m)
    (h : Host σ) (path : Path) (c : Container) (dek : Bytes) :
    ∃ h', initSession C M path dek stored c minutes h = (.ok h.nextSession, h') ∧
      Begun h h' h.nextSession path c dek m ∧ SameFiles h h' := by
  refine ⟨_, initSession_eq hm h, ?_, rfl⟩
  exact
    { index := rfl
      next := rfl
      others := fun k hk => Function.update_of_ne hk _ _
      location := by simp [Host.begin, Host.setState]
      key := by simp [Host.begin, Host.setState]
      envelope := by simp [Host.begin, Host.setState]
      material := by simp [Host.begin, Host.setState, Session.material]
      capabilities := by simp [Host.begin, Host.setState]
      files := fun _ _ => rfl
      log := rfl
      latches := rfl
      consumed := rfl
      fresh := rfl
      signers := rfl }

theorem initSession_ok {stored : Payload} (hr : initSession C M path dek stored c minutes h = (.ok j, h')) :
    ∃ m, installSecretMaterial C stored = .ok m ∧ Begun h h' j path c dek m ∧ SameFiles h h' := by
  cases hm : installSecretMaterial C stored with
  | error e => simp [initSession, hm, bind_run] at hr
  | ok m =>
    obtain ⟨h1, hrun, hbegun, hsame⟩ := initSession_begun (M := M) hm h path c dek
    cases hrun.symm.trans hr
    exact ⟨m, rfl, hbegun, hsame⟩

/-! ### Opening a file -/

theorem readContainer_ok {raw : Bytes} (hr : readContainer M path h = (.ok raw, h')) :
    ∃ data, h.dataAt path = some data ∧ raw = data.take (maxContainerBytes + 1) ∧ OnlyFile path h h' ∧
    SameFiles h h' := by
  obtain ⟨-, rfl, data, hdata, rfl⟩ := readContainer_ok_iff.1 hr
  exact ⟨data, hdata, rfl, ⟨rfl, rfl, rfl, rfl, rfl, rfl, rfl, fun _ _ => rfl⟩, rfl⟩

theorem openWallet_ok {password : Str} (hr : openWallet C M path password minutes h = (.ok j, h')) :
    ∃ data c dek m, h.dataAt path = some data ∧ data.length ≤ maxContainerBytes ∧ Unlocks C data password c dek m ∧
      Begun h h' j path c dek m ∧ SameFiles h h' := by
  simp only [openWallet, bind_ok_iff, lift_ok_iff] at hr
  obtain ⟨_, _, ⟨-, rfl⟩, _, _, ⟨-, rfl⟩, raw, h1, hread, c, _, ⟨hparse, rfl⟩, ⟨dek, stored⟩, _, ⟨hunlock, rfl⟩,
    hinit⟩ := hr
  obtain ⟨data, hdata, rfl, honly, hsame⟩ := readContainer_ok hread
  rw [parseContainer_take] at hparse
  obtain ⟨hlen, hparse⟩ := parseContainer_eq_ok.1 hparse
  obtain ⟨hunwrap, hdecode⟩ := unlockEnvelope_eq_ok.1 hunlock
  obtain ⟨m, hm, hbegun, hsame'⟩ := initSession_ok hinit
  exact ⟨data, c, dek, m, hdata, hlen, ⟨hparse, hunwrap, stored, hdecode, hm⟩, hbegun.of_only honly (Std.Refl.refl _),
    IsTrans.trans _ _ _ hsame hsame'⟩

/-- A file that unlocks is opened. -/
theorem openWallet_working (hM : M.Working) {password : Str} {data : Bytes} {m : SecretMaterial}
    (hpassword : validatePassword password none = .ok ()) (hminutes : validateInactivity minutes = .ok ())
    (hdata : h.dataAt path = some data) (hlen : data.length ≤ maxContainerBytes)
    (hunlocks : Unlocks C data password c dek m) :
    ∃ j h', openWallet C M path password minutes h = (.ok j, h') ∧ Begun h h' j path c dek m ∧ SameFiles h h' := by
  obtain ⟨s, hread⟩ := readContainer_working hM path h
  obtain ⟨stored, hunlock, hm⟩ := unlockEnvelope_of_unlocks hunlocks
  obtain ⟨h1, hinit, hbegun, hsame⟩ := initSession_begun (M := M) hm (h.setState s) path c dek
  have hparse := parseContainer_eq_ok.2 ⟨hlen, hunlocks.parse⟩
  rw [← parseContainer_take] at hparse
  rw [hdata] at hread
  refine ⟨_, h1, ?_, hbegun.of_only ⟨rfl, rfl, rfl, rfl, rfl, rfl, rfl, fun _ _ => rfl⟩ (Std.Refl.refl _), hsame⟩
  simp only [openWallet, bind_ok_iff, lift_ok_iff]
  exact ⟨(), h, ⟨hpassword, rfl⟩, (), h, ⟨hminutes, rfl⟩, _, _, hread, c, _, ⟨hparse, rfl⟩, _, _, ⟨hunlock, rfl⟩, hinit⟩

/-! ### Importing -/

theorem writeOrLock_ok {data : Bytes} {replace : Bool} {k : ℕ}
    (hr : writeOrLock M path data replace k h = (.ok j, h')) :
    j = k ∧ atomicWrite M path data replace h = (.ok (), h') := by
  simp only [writeOrLock, bind_ok_iff, attempt_ok_iff] at hr
  obtain ⟨r, h1, hwrite, hr⟩ := hr
  rcases r with e | _
  · simp [bind_ok_iff] at hr
  · obtain ⟨rfl, rfl⟩ := pure_ok_iff.1 hr
    exact ⟨rfl, hwrite⟩

theorem writeOrLock_error_iff {data : Bytes} {replace : Bool} {e : Raised} :
    writeOrLock M path data replace j h = (.error e, h') ↔ ∃ h1, atomicWrite M path data replace h = (.error e, h1) ∧
      h' = (h1.invalidate (h1.sessions j).capabilities).setSession j (h1.sessions j).locked := by
  rcases hw : atomicWrite M path data replace h with ⟨e' | a, h1⟩
  · rw [writeOrLock, bind_run_ok (attempt_ok_iff.2 hw)]
    simp [bind_run_ok (lock_run h1), eq_comm]
  · rw [writeOrLock, bind_run_ok (attempt_ok_iff.2 hw)]
    simp

theorem importContainer_ok {password : Str} {data : Bytes}
    (hr : importContainer C M path data password minutes h = (.ok j, h')) :
    h.dataAt path = none ∧ ∃ c dek m, data.length ≤ maxContainerBytes ∧ Unlocks C data password c dek m ∧
      Begun h h' j path c dek m ∧ h'.dataAt path = some data := by
  simp only [importContainer, bind_ok_iff, lift_ok_iff, mapError_ok_iff] at hr
  obtain ⟨_, _, ⟨-, rfl⟩, _, _, ⟨hminutes, rfl⟩, c, _, ⟨hparse, rfl⟩, ⟨dek, stored⟩, _, ⟨hunlock, rfl⟩, k, h1, hinit,
    hwrite⟩ := hr
  obtain ⟨hlen, hparse⟩ := parseContainer_eq_ok.1 hparse
  obtain ⟨hunwrap, hdecode⟩ := unlockEnvelope_eq_ok.1 hunlock
  obtain ⟨m, hm, hbegun, hsame⟩ := initSession_ok hinit
  obtain ⟨hjk, hatomic⟩ := writeOrLock_ok hwrite
  subst hjk
  obtain ⟨hnone, hfile⟩ := atomicWrite_create_ok hatomic
  rw [hsame.dataAt] at hnone
  exact ⟨hnone, c, dek, m, hlen, ⟨hparse, hunwrap, stored, hdecode, hm⟩,
    hbegun.of_only (Std.Refl.refl _) ((atomicWrite_only data false).of_run hatomic), hfile⟩

theorem importContainer_working (hM : M.Working) {password : Str} {data : Bytes} {m : SecretMaterial}
    (hpassword : validatePassword password none = .ok ()) (hminutes : validateInactivity minutes = .ok ())
    (hnone : h.dataAt path = none) (hlen : data.length ≤ maxContainerBytes)
    (hunlocks : Unlocks C data password c dek m) :
    ∃ j h', importContainer C M path data password minutes h = (.ok j, h') ∧ Begun h h' j path c dek m := by
  obtain ⟨stored, hunlock, hm⟩ := unlockEnvelope_of_unlocks hunlocks
  obtain ⟨h1, hinit, hbegun, hsame⟩ := initSession_begun (M := M) hm h path c dek
  obtain ⟨h2, hwrite⟩ := atomicWrite_create_working hM data (by rw [hsame.dataAt, hnone])
  have hparse := parseContainer_eq_ok.2 ⟨hlen, hunlocks.parse⟩
  refine ⟨_, h2, ?_, hbegun.of_only (Std.Refl.refl _) ((atomicWrite_only data false).of_run hwrite)⟩
  simp only [importContainer, writeOrLock, bind_ok_iff, lift_ok_iff, attempt_ok_iff, mapError_ok_iff]
  exact ⟨(), h, ⟨hpassword, rfl⟩, (), h, ⟨hminutes, rfl⟩, c, h, ⟨hparse, rfl⟩, _, h, ⟨hunlock, rfl⟩, _, h1, hinit,
    .ok (), h2, hwrite, rfl⟩

/-! ### Creating and migrating -/

/-- What `_build_v2_envelope` makes. -/
structure Built (C : Crypto) (password : Str) (dek : Bytes) (kdf : KdfHeader) (p : Payload) (c : Container) : Prop where
  version : c.version = currentFormatVersion
  header : c.kdf = kdf
  wrap : ∃ salt kek nonce, b64Decode kdf.salt (some saltLength) = .ok salt ∧ deriveKek C password salt = .ok kek ∧
    nonce.length = nonceLength ∧ wrapDek C kek dek kdf nonce = .ok c.wrap
  boxes : Boxes C dek p c.payload

section

variable {password : Str} {kdf : KdfHeader} {p : Payload}

theorem Built.stores (hC : C.Correct) (hb : Built C password dek kdf p c) {m : SecretMaterial}
    (hm : installSecretMaterial C p = .ok m) : c.Stores C dek m := by
  obtain ⟨salt, kek, nonce, -, -, hn, hwrap⟩ := hb.wrap
  exact ⟨wrapDek_ok hC hwrap hn, hb.boxes.ok hC, p, hb.boxes.decode hC, hm⟩

/-- The password unwraps the key. -/
theorem Built.unwraps (hC : C.Correct) (hb : Built C password dek kdf p c) (hdek : dek.length = keyLength) :
    unwrapDek C c password currentFormatVersion = .ok dek := by
  obtain ⟨salt, kek, nonce, hsalt, hkek, hn, hwrap⟩ := hb.wrap
  rw [← hb.header] at hsalt hwrap
  exact unwrapDek_wrapDek hC hsalt hkek hwrap hdek hn

theorem Built.written (hC : C.Correct) {salt : Bytes} (hb : Built C password dek (kdfHeader salt) p c)
    (hsalt : salt.length = saltLength) {m : SecretMaterial} (hm : installSecretMaterial C p = .ok m) : c.Written salt :=
  ⟨hb.version, hb.header, hsalt, (hb.stores hC hm).wrap, (hb.stores hC hm).payload⟩

theorem buildV2Envelope_ok (path : Path) (hr : buildV2Envelope C M password dek kdf p h = (.ok c, h')) :
    Built C password dek kdf p c ∧ OnlyFile path h h' ∧ SameFiles h h' := by
  simp only [buildV2Envelope, bind_ok_iff, lift_ok_iff, pure_ok_iff] at hr
  obtain ⟨salt, _, ⟨hsalt, rfl⟩, kek, _, ⟨hkek, rfl⟩, nonce, h1, hnonce, wrap, _, ⟨hwrap, rfl⟩, box, h2, hbox,
    rfl, rfl⟩ := hr
  obtain ⟨-, hboxes⟩ := (makePayload_ends (M := M) (i := 0) h1 dek p).ok hbox
  have h01 : OnlyFile path h h1 ∧ SameFiles h h1 := by
    cases hnonce
    exact ⟨⟨rfl, rfl, rfl, rfl, rfl, rfl, rfl, fun _ _ => rfl⟩, rfl⟩
  have h12 : OnlyFile path h1 h2 ∧ SameFiles h1 h2 := by
    simp only [makePayload, bind_ok_iff, lift_ok_iff] at hbox
    obtain ⟨_, _, ⟨-, rfl⟩, n, h3, hn, -, rfl⟩ := hbox
    cases hn
    exact ⟨⟨rfl, rfl, rfl, rfl, rfl, rfl, rfl, fun _ _ => rfl⟩, rfl⟩
  exact ⟨⟨rfl, rfl, ⟨salt, kek, nonce, hsalt, hkek, nonce.2, hwrap⟩, hboxes⟩, IsTrans.trans _ _ _ h01.1 h12.1,
    IsTrans.trans _ _ _ h01.2 h12.2⟩

end

/-- What a call that creates a wallet leaves. -/
structure Created (C : Crypto) (path : Path) (password : Str) (p : Payload) (h h' : Host σ) (j : ℕ) (c : Container)
    (dek salt : Bytes) (m : SecretMaterial) (data : Bytes) : Prop where
  before : h.dataAt path = none
  built : Built C password dek (kdfHeader salt) p c
  salt_length : salt.length = saltLength
  key_length : dek.length = keyLength
  install : installSecretMaterial C p = .ok m
  begun : Begun h h' j path c dek m
  written : serialize c = .ok data
  after : h'.dataAt path = some data

theorem createStorage_ok {password confirmation : Str} {payload : Payload}
    (hr : createStorage C M path password confirmation payload minutes h = (.ok j, h')) :
    ∃ c dek salt m data, Created C path password payload h h' j c dek salt m data := by
  simp only [createStorage, bind_ok_iff, lift_ok_iff, mapError_ok_iff] at hr
  obtain ⟨_, _, ⟨-, rfl⟩, _, _, ⟨hminutes, rfl⟩, dek, h1, hdek, salt, h2, hsalt, c, h3, hbuild, data, _, ⟨hdata, rfl⟩,
    _, h4, hwrite, hinit⟩ := hr
  have h02 : OnlyFile path h h2 ∧ SameFiles h h2 := by
    cases hdek
    cases hsalt
    exact ⟨⟨rfl, rfl, rfl, rfl, rfl, rfl, rfl, fun _ _ => rfl⟩, rfl⟩
  obtain ⟨hbuilt, honly, hsame⟩ := buildV2Envelope_ok path hbuild
  obtain ⟨hnone, hfile⟩ := atomicWrite_create_ok hwrite
  rw [hsame.dataAt, h02.2.dataAt] at hnone
  have hinit : initSession C M path dek.1 payload c minutes h4 = (.ok j, h') := by
    rcases tryCatch_ok_iff.1 hinit with hok | ⟨e, h5, -, hcatch⟩
    · exact hok
    · simp [bind_ok_iff] at hcatch
  obtain ⟨m, hm, hbegun, hsame'⟩ := initSession_ok hinit
  have hbefore : OnlyFile path h h4 :=
    IsTrans.trans _ _ _ h02.1 (IsTrans.trans _ _ _ honly ((atomicWrite_only data false).of_run hwrite))
  exact ⟨c, dek, salt, m, data, hnone, hbuilt, salt.2, dek.2, hm, hbegun.of_only hbefore (Std.Refl.refl _), hdata,
    by rw [hsame'.dataAt, hfile]⟩

theorem create_ok {password confirmation : Str} {payload : Payload}
    (hr : create C M path password confirmation payload minutes h = (.ok j, h')) :
    ∃ c dek salt m data, Created C path password payload h h' j c dek salt m data := by
  simp only [create, bind_ok_iff, reject_ok_iff] at hr
  obtain ⟨_, _, ⟨-, rfl⟩, hr⟩ := hr
  exact createStorage_ok hr

theorem createWithGeneratedKey_ok {password confirmation : Str}
    (hr : createWithGeneratedKey C M path password confirmation minutes h = (.ok j, h')) :
    ∃ (h1 : Host σ) (p : Payload), ∃ c dek salt m data, Created C path password p h1 h' j c dek salt m data := by
  simp only [createWithGeneratedKey, bind_ok_iff, lift_ok_iff] at hr
  obtain ⟨seed, h1, -, key, _, ⟨-, rfl⟩, hr⟩ := hr
  exact ⟨h1, _, createStorage_ok hr⟩

/-- What `migrate_container` reads, builds and leaves; the header is the old one. -/
structure Migrated (C : Crypto) (path : Path) (password : Str) (h h' : Host σ) (j : ℕ) (raw : Bytes)
    (old c : Container) (dek : Bytes) (stored : Payload) (m : SecretMaterial) (data : Bytes) : Prop where
  before : h.dataAt path = some raw
  parse : parseContainer C raw 1 = .ok old
  unlock : unlockEnvelope C old password 1 = .ok (dek, stored)
  install : installSecretMaterial C stored = .ok m
  built : Built C password dek old.kdf stored c
  begun : Begun h h' j path c dek m
  written : serialize c = .ok data
  after : h'.dataAt path = some data

theorem migrateContainer_ok {password : Str} (hr : migrateContainer C M path password minutes h = (.ok j, h')) :
    validatePassword password none = .ok () ∧
      ∃ raw old c dek stored m data, Migrated C path password h h' j raw old c dek stored m data := by
  simp only [migrateContainer, bind_ok_iff, lift_ok_iff, mapError_ok_iff] at hr
  obtain ⟨_, _, ⟨hpassword, rfl⟩, _, _, ⟨-, rfl⟩, raw, h1, hread, old, _, ⟨hparse, rfl⟩, ⟨dek, stored⟩, _,
    ⟨hunlock, rfl⟩, c, h2, hbuild, k, h3, hinit, data, _, ⟨hdata, rfl⟩, hwrite⟩ := hr
  obtain ⟨bytes, hbytes, rfl, honly1, hsame1⟩ := readContainer_ok hread
  rw [parseContainer_take] at hparse
  obtain ⟨hbuilt, honly2, -⟩ := buildV2Envelope_ok path hbuild
  obtain ⟨m, hm, hbegun, -⟩ := initSession_ok hinit
  obtain ⟨hjk, hatomic⟩ := writeOrLock_ok hwrite
  subst hjk
  have hend := atomicWrite_replace hatomic
  cases hend with
  | written hafter =>
    exact ⟨hpassword, bytes, old, c, dek, stored, m, data, hbytes, hparse, hunlock, hm, hbuilt,
      hbegun.of_only (IsTrans.trans _ _ _ honly1 honly2) ((atomicWrite_only data true).of_run hatomic), hdata, hafter⟩

theorem Migrated.key_length {password : Str} {raw data : Bytes} {old : Container} {stored : Payload}
    {m : SecretMaterial} (hm : Migrated C path password h h' j raw old c dek stored m data) : dek.length = keyLength :=
  length_of_unwrapDek (unlockEnvelope_eq_ok.1 hm.unlock).1

end

/-! ### Calls that fail -/

theorem readContainer_same (path : Path) : Keeps SameFiles (readContainer M path) := by
  refine (readBytes_same path).attempt.bind fun r => ?_
  cases r with
  | error e => exact Keeps.raise _
  | ok data => exact Keeps.pure _

theorem ask_same {α : Type} (f : σ → α × σ) : Keeps SameFiles (ask f : Proc σ α) := fun _ => rfl

theorem initSession_same (path : Path) (dek : Bytes) (stored : Payload) (c : Container) (minutes : ℤ) :
    Keeps SameFiles (initSession C M path dek stored c minutes) :=
  (Keeps.lift _).bind fun _ => (ask_same _).bind fun _ => fun _ => rfl

theorem makePayload_same (dek : Bytes) (payload : Payload) : Keeps SameFiles (makePayload C M dek payload) :=
  (Keeps.lift _).bind fun _ => (ask_same _).bind fun _ => Keeps.lift _

theorem buildV2Envelope_same (password : Str) (dek : Bytes) (kdf : KdfHeader) (payload : Payload) :
    Keeps SameFiles (buildV2Envelope C M password dek kdf payload) :=
  (Keeps.lift _).bind fun _ => (Keeps.lift _).bind fun _ => (ask_same _).bind fun _ => (Keeps.lift _).bind fun _ =>
    (makePayload_same _ _).bind fun _ => Keeps.pure _

theorem openWallet_same (path : Path) (password : Str) (minutes : ℤ) :
    Keeps SameFiles (openWallet C M path password minutes) :=
  (Keeps.lift _).bind fun _ => (Keeps.lift _).bind fun _ => (readContainer_same path).bind fun _ =>
    (Keeps.lift _).bind fun _ => (Keeps.lift _).bind fun _ => initSession_same _ _ _ _ _

section

variable {path : Path} {password : Str} {minutes : ℤ} {h : Host σ} {F : Raised → Host σ → Prop}

/-- What fails after steps that leave the files alone. -/
theorem same_then {α β : Type} {x : Proc σ α} {f : α → Proc σ β} {h0 h : Host σ} (hx : Keeps SameFiles x)
    (hF : ∀ e h', SameFiles h0 h' → F e h') (h0h : SameFiles h0 h)
    (hf : ∀ a h', SameFiles h0 h' → Ends (f a) h' (fun _ _ => True) F) : Ends (x >>= f) h (fun _ _ => True) F :=
  ((Ends.of_keeps hx h).mono (fun _ _ hs => IsTrans.trans _ _ _ h0h hs)
    fun e h' hs => hF e h' (IsTrans.trans _ _ _ h0h hs)).bind hf

/-- Only the write at the end touches the files. -/
theorem importContainer_ends {data : Bytes} (hF : ∀ e h', SameFiles h h' → F e h')
    (hwrite : ∀ j h', SameFiles h h' → Ends (writeOrLock M path data false j) h' (fun _ _ => True) fun e =>
    F e.orStorageFailure) : Ends (importContainer C M path data password minutes) h (fun _ _ => True) F := by
  refine same_then (Keeps.lift _) hF (Std.Refl.refl h) fun _ _ h1 => same_then (Keeps.lift _) hF h1 fun _ _ h2 =>
    same_then (Keeps.lift _) hF h2 fun _ _ h3 => Ends.mapError ?_
  have hF' : ∀ e h', SameFiles h h' → F (Raised.orStorageFailure e) h' := fun e => hF _
  exact same_then (Keeps.lift _) hF' h3 fun _ _ h4 => same_then (initSession_same _ _ _ _ _) hF' h4 hwrite

theorem migrateContainer_ends (hF : ∀ e h', SameFiles h h' → F e h')
    (hwrite : ∀ data j h', SameFiles h h' →
      Ends (writeOrLock M path data true j) h' (fun _ _ => True) fun e => F e.orStorageFailure) :
    Ends (migrateContainer C M path password minutes) h (fun _ _ => True) F := by
  refine same_then (Keeps.lift _) hF (Std.Refl.refl h) fun _ _ h1 => same_then (Keeps.lift _) hF h1 fun _ _ h2 =>
    same_then (readContainer_same path) hF h2 fun _ _ h3 => same_then (Keeps.lift _) hF h3 fun _ _ h4 =>
    Ends.mapError ?_
  have hF' : ∀ e h', SameFiles h h' → F (Raised.orStorageFailure e) h' := fun e => hF _
  exact same_then (Keeps.lift _) hF' h4 fun _ _ h5 => same_then (buildV2Envelope_same _ _ _ _) hF' h5 fun _ _ h6 =>
    same_then (initSession_same _ _ _ _ _) hF' h6 fun j _ h7 => same_then (Keeps.lift _) hF' h7 fun data =>
    hwrite data j

end

end DecentWallet
