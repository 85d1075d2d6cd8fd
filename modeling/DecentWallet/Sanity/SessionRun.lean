import DecentWallet.Sanity.WalletRun

/-! Runs of one session. Its key stays wrapped as it was in the container it began with, until a password is set; and
what it holds is what its file unlocks to, where that container had a header of the wallet's own. -/

namespace DecentWallet

open Raised Prog

variable {σ : Type} {P : Platform} {C : Crypto} {M : Machine σ} {i : ℕ}

/-! ### One operation -/

/-- What an operation that returns or raises does to the session and its file. -/
inductive Stepped (C : Crypto) (M : Machine σ) (i : ℕ) (h : Host σ) (c : Container) (dek : Bytes) (op : WalletOp P) :
    Except Raised WalletResult → Host σ → Prop where
  | locked {r : Except Raised WalletResult} {h' : Host σ} : (h'.sessions i).Locked → (r.isOk = true → op = .lock) →
      Stepped C M i h c dek op r h'
  | kept {r : Except Raised WalletResult} {h' : Host σ} : SameCore (h.sessions i) (h'.sessions i) →
      (r.isOk = true → op.rewrites (h.sessions i) = false) →
      (M.Steady → h'.dataAt (h.sessions i).path = h.dataAt (h.sessions i).path) → Stepped C M i h c dek op r h'
  | saved {a : WalletResult} {h' : Host σ} {c' : Container} {m : SecretMaterial} :
      Writes C (h.sessions i) c dek op c' m → Saved i h h' c' m → Stepped C M i h c dek op (.ok a) h'

theorem walletOp_stepped (hC : C.Correct) {h h' : Host σ} {c : Container} {dek : Bytes} {op : WalletOp P}
    {r : Except Raised WalletResult} (hs : (h.sessions i).Holds C c dek) (hr : op.run C M i h = (r, h')) :
    Stepped C M i h c dek op r h' := by
  have hout := walletOp_outcome hC hs hr
  cases hout with
  | refused hstopped =>
    rcases hstopped.held with hsame | hidle
    · exact .kept hsame Bool.noConfusion fun _ => hstopped.file
    · exact .locked hidle.locked Bool.noConfusion
  | unknown hlost => exact .locked hlost.locked Bool.noConfusion
  | gone hgone =>
    obtain ⟨s, hloses⟩ := hgone.loses
    exact .kept hgone.same Bool.noConfusion fun hM => absurd hloses (hM s)
  | read hop hready => exact .kept hready.same (fun _ => hop) fun _ => hready.file
  | minted hop hminted => exact .kept hminted.same (fun _ => by rw [hop]; rfl) fun _ => hminted.files _
  | locked hop hlost => exact .locked hlost.locked fun _ => hop
  | saved hw hsaved _ _ => exact .saved hw hsaved

theorem walletOp_stays_locked {h h' : Host σ} {op : WalletOp P} {r : Except Raised WalletResult}
    (hl : (h.sessions i).Locked) (hr : op.run C M i h = (r, h')) : (h'.sessions i).Locked := by
  rcases walletOp_locked hl.dek hr with ⟨-, rfl⟩ | ⟨-, -, hlost⟩
  · exact hl
  · exact hlost.locked

/-- An operation that returns leaves the session unlocked, unless it locks it. -/
theorem Stepped.key {h h' : Host σ} {c : Container} {dek : Bytes} {op : WalletOp P} {a : WalletResult}
    (hs : (h.sessions i).Holds C c dek) (hstep : Stepped C M i h c dek op (.ok a) h') (hop : op ≠ .lock) :
    (h'.sessions i).dek = some dek := by
  cases hstep with
  | locked _ hlock => exact absurd (hlock rfl) hop
  | kept hsame _ _ => exact hsame.dek.trans hs.key
  | saved _ hsaved => exact hsaved.key.trans hs.key

theorem Saved.holds {h h' : Host σ} {c c' : Container} {dek : Bytes} {op : WalletOp P} {m : SecretMaterial}
    (hs : (h.sessions i).Holds C c dek) (hw : Writes C (h.sessions i) c dek op c' m) (hsaved : Saved i h h' c' m) :
    (h'.sessions i).Holds C c' dek := by
  obtain ⟨salt, hwritten⟩ := hw.written
  refine ⟨hsaved.envelope, hsaved.key.trans hs.key, ?_, ?_⟩
  · rw [hwritten.kdf]
    exact ⟨salt, b64Decode_encode_length hwritten.salt⟩
  · rw [hsaved.material]
    exact hw.stores hs.stores

/-! ### The container the key is wrapped in -/

/-- The session holds the container `c`, whose wrapped key is that of `root`, which the password unwraps. -/
structure Rooted (C : Crypto) (s : Session) (password : Str) (root c : Container) (dek : Bytes) : Prop where
  holds : s.Holds C c dek
  unwrap : unwrapDek C root password currentFormatVersion = .ok dek
  wrapped : c = root ∨ root.Reseals c

namespace Rooted

variable {s : Session} {root c : Container} {dek : Bytes} {password : Str} {h h' : Host σ}

theorem of_core {s' : Session} (hr : Rooted C s password root c dek) (hs : SameCore s s') :
    Rooted C s' password root c dek := ⟨hr.holds.of_core hs, hr.unwrap, hr.wrapped⟩

/-- What is sealed anew has the same root. -/
theorem reseals {c' : Container} {m : SecretMaterial} (hr : Rooted C s password root c dek)
    (hresealed : Resealed C c dek c' m) : root.Reseals c' := by
  rcases hr.wrapped with rfl | hreseals
  · exact hresealed.reseals
  · exact hreseals.trans hresealed.reseals

/-- The root stays until a password is set, and then it is the container just written. -/
theorem operation (hC : C.Correct) (hr : Rooted C (h.sessions i) password root c dek) {op : WalletOp P}
    {r : Except Raised WalletResult} (hrun : op.run C M i h = (r, h')) :
    (h'.sessions i).Locked ∨ ∃ root' c', Rooted C (h'.sessions i) (passwordThen op r password) root' c' dek ∧
      (root' = root ∧ ¬op.Rekeys r ∨ op.Rekeys r ∧ root'.HeaderKept) := by
  have hstep := walletOp_stepped hC hr.holds hrun
  cases hstep with
  | locked hlocked _ => exact .inl hlocked
  | kept hsame hop _ =>
    have hnot := WalletOp.not_rekeys_of_rewrites hop
    rw [passwordThen_of_not_rekeys hnot]
    exact .inr ⟨root, c, hr.of_core hsame, .inl ⟨rfl, hnot⟩⟩
  | saved hw hsaved =>
    have hholds := hsaved.holds hr.holds hw
    rcases hw.resealed_or with ⟨hresealed, hnot⟩ | ⟨new, confirmation, rfl, hrewraps, -⟩
    · rw [passwordThen_of_not_rekeys (hnot _)]
      exact .inr ⟨root, _, ⟨hholds, hr.unwrap, .inr (hr.reseals hresealed)⟩, .inl ⟨rfl, hnot _⟩⟩
    · obtain ⟨salt, hwritten⟩ := hrewraps.written
      exact .inr ⟨_, _, ⟨hholds, hrewraps.unwraps (length_of_unwrapDek hr.unwrap), .inl rfl⟩,
        .inr ⟨⟨⟨_, _, rfl⟩, rfl⟩, hwritten.ownHeader.headerKept⟩⟩

end Rooted

section

variable {h0 h : Host σ} {root c : Container} {dek : Bytes} {password0 password : Str}
  {A : Session → WalletOp P → Except Raised WalletResult → Prop}

theorem SessionRun.locked (h0l : (h0.sessions i).Locked) (hrun : SessionRun C M A i h0 password0 h password) :
    (h.sessions i).Locked := by
  induction hrun with
  | start => exact h0l
  | operation op _ _ hr ih => exact walletOp_stays_locked ih hr
  | elsewhere _ hsession _ ih => rwa [hsession]

/-- A run that sets no password keeps the root. -/
theorem SessionRun.rooted (hC : C.Correct) (hA : ∀ {s op r}, A s op r → ¬op.Rekeys r)
    (h0r : Rooted C (h0.sessions i) password0 root c dek) (hrun : SessionRun C M A i h0 password0 h password) :
    (h.sessions i).Locked ∨ ∃ c', Rooted C (h.sessions i) password root c' dek := by
  induction hrun with
  | start => exact .inr ⟨c, h0r⟩
  | operation op _ hop hr ih =>
    rcases ih with hlocked | ⟨c', hroot⟩
    · exact .inl (walletOp_stays_locked hlocked hr)
    · refine (hroot.operation hC hr).imp_right fun hex => ?_
      obtain ⟨root', c'', hroot', ⟨rfl, -⟩ | ⟨hrekeys, -⟩⟩ := hex
      · exact ⟨c'', hroot'⟩
      · exact absurd hrekeys (hA hop)
  | elsewhere _ hsession _ ih => rwa [hsession]

/-- Any run keeps what is true of the root and of every kept header. -/
theorem SessionRun.rooted_of (hC : C.Correct) {Q : Container → Prop} (hQ : ∀ {c}, c.HeaderKept → Q c) (hroot : Q root)
    (h0r : Rooted C (h0.sessions i) password0 root c dek) (hrun : SessionRun C M A i h0 password0 h password) :
    (h.sessions i).Locked ∨ ∃ root' c', Rooted C (h.sessions i) password root' c' dek ∧ Q root' := by
  induction hrun with
  | start => exact .inr ⟨root, c, h0r, hroot⟩
  | operation op _ _ hr ih =>
    rcases ih with hlocked | ⟨root', c', hroot, hk⟩
    · exact .inl (walletOp_stays_locked hlocked hr)
    · refine (hroot.operation hC hr).imp_right fun hex => ?_
      obtain ⟨root'', c'', hroot', ⟨rfl, -⟩ | ⟨-, hk'⟩⟩ := hex
      · exact ⟨_, c'', hroot', hk⟩
      · exact ⟨_, c'', hroot', hQ hk'⟩
  | elsewhere _ hsession _ ih => rwa [hsession]

end

/-! ### The session and its file -/

/-- The session is unlocked, and its file unlocks to what it holds. -/
def Agrees (C : Crypto) (h : Host σ) (i : ℕ) (password : Str) : Prop :=
  ∃ data c dek, h.dataAt (h.sessions i).path = some data ∧ Unlocks C data password c dek (h.sessions i).material ∧
    (h.sessions i).Holds C c dek ∧ c.HeaderKept

theorem Agrees.of_core {h h' : Host σ} {password : Str} (ha : Agrees C h i password)
    (hc : SameCore (h.sessions i) (h'.sessions i)) (hd : h'.dataAt (h.sessions i).path = h.dataAt (h.sessions i).path) :
    Agrees C h' i password := by
  obtain ⟨data, c, dek, hdata, hunlocks, hholds, hkept⟩ := ha
  have hm : (h'.sessions i).material = (h.sessions i).material := by
    simp [Session.material, hc.payload, hc.seed, hc.pendingSeed]
  refine ⟨data, c, dek, by rw [hc.path, hd, hdata], ?_, hholds.of_core hc, hkept⟩
  rw [hm]
  exact hunlocks

theorem Agrees.of_saved {h h' : Host σ} {c c' : Container} {dek : Bytes} {op : WalletOp P} {m : SecretMaterial}
    {password : Str} (hC : C.Correct) (hs : (h.sessions i).Holds C c dek) (hkept : c.HeaderKept)
    (hu : unwrapDek C c password currentFormatVersion = .ok dek) (hw : Writes C (h.sessions i) c dek op c' m)
    (hsaved : Saved i h h' c' m) (a : WalletResult) : Agrees C h' i (passwordThen op (.ok a) password) := by
  obtain ⟨salt, hwritten⟩ := hw.written
  obtain ⟨data, hdata, hfile⟩ := hsaved.file
  refine ⟨data, c', dek, by rw [hsaved.path, hfile], ?_, hsaved.holds hs hw, hwritten.ownHeader.headerKept⟩
  rw [hsaved.material]
  exact unlocks_serialize hC hwritten (hw.stores hs.stores) hdata (hw.unwraps hkept hu a)

/-- What holds between operations. -/
def Steadfast (C : Crypto) (i : ℕ) (h : Host σ) (password : Str) : Prop := (h.sessions i).Locked ∨ Agrees C h i password

/-- A session of a container it wrote itself. -/
theorem steadfast_begun {h h' : Host σ} {path : Path} {c : Container} {salt data dek : Bytes} {m : SecretMaterial}
    {password : Str} (hC : C.Correct) (hb : Begun h h' i path c dek m) (hw : c.Written salt) (hs : c.Stores C dek m)
    (hdata : serialize c = .ok data) (hu : unwrapDek C c password currentFormatVersion = .ok dek)
    (hfile : h'.dataAt path = some data) : Steadfast C i h' password := by
  refine .inr ⟨data, c, dek, by rw [hb.location, hfile], ?_, hb.holds hs ?_, hw.ownHeader.headerKept⟩
  · rw [hb.material]
    exact unlocks_serialize hC hw hs hdata hu
  · rw [hw.kdf]
    exact ⟨salt, b64Decode_encode_length hw.salt⟩

/-- A session of a container it read. -/
theorem steadfast_unlocked {h h' : Host σ} {path : Path} {c : Container} {data dek : Bytes} {m : SecretMaterial}
    {password : Str} (hb : Begun h h' i path c dek m) (hu : Unlocks C data password c dek m)
    (hfile : h'.dataAt path = some data) (ho : ∀ c ∈ (h'.sessions i).envelope, c.OwnHeader) :
    Steadfast C i h' password := by
  refine .inr ⟨data, c, dek, by rw [hb.location, hfile], ?_, hb.holds hu.stores ?_, (ho c hb.envelope).headerKept⟩
  · rw [hb.material]
    exact hu
  · exact (boxes_of_parse hu.parse).2.2

theorem Created.steadfast {h h' : Host σ} {path : Path} {password : Str} {p : Payload} {c : Container}
    {dek salt data : Bytes} {m : SecretMaterial} (hC : C.Correct)
    (hc : Created C path password p h h' i c dek salt m data) : Steadfast C i h' password :=
  steadfast_begun hC hc.begun (hc.built.written hC hc.salt_length hc.install) (hc.built.stores hC hc.install) hc.written
    (hc.built.unwraps hC hc.key_length) hc.after

theorem Started.steadfast (hC : C.Correct) {h' : Host σ} {password : Str}
    (hs : Started C M Container.OwnHeader i password h') : Steadfast C i h' password := by
  cases hs with
  | create hr =>
    obtain ⟨c, dek, salt, m, data, hc⟩ := create_ok hr
    exact hc.steadfast hC
  | generated hr =>
    obtain ⟨h1, p, c, dek, salt, m, data, hc⟩ := createWithGeneratedKey_ok hr
    exact hc.steadfast hC
  | opened hr ho =>
    obtain ⟨data, c, dek, m, hdata, -, hu, hb, hsame⟩ := openWallet_ok hr
    exact steadfast_unlocked hb hu (by rw [hsame.dataAt, hdata]) ho
  | imported hr ho =>
    obtain ⟨-, c, dek, m, -, hu, hb, hfile⟩ := importContainer_ok hr
    exact steadfast_unlocked hb hu hfile ho
  | migrated hr ho =>
    obtain ⟨-, raw, old, c, dek, stored, m, data, hm⟩ := migrateContainer_ok hr
    obtain ⟨salt, hlen, hkdf⟩ := ho c hm.begun.envelope
    have hstores := hm.built.stores hC hm.install
    exact steadfast_begun hC hm.begun ⟨hm.built.version, hkdf, hlen, hstores.wrap, hstores.payload⟩ hstores hm.written
      (hm.built.unwraps hC hm.key_length) hm.after

/-- Each session is its own root when it begins. -/
theorem Started.rooted (hC : C.Correct) {H : Container → Prop} {h' : Host σ} {password : Str}
    (hs : Started C M H i password h') : ∃ c dek, Rooted C (h'.sessions i) password c c dek := by
  have hbuilt : ∀ {h : Host σ} {path : Path} {dek : Bytes} {kdf : KdfHeader} {p : Payload} {c : Container}
      {m : SecretMaterial}, Begun h h' i path c dek m → Built C password dek kdf p c → dek.length = keyLength →
      installSecretMaterial C p = .ok m → Rooted C (h'.sessions i) password c c dek := by
    intro h path dek kdf p c m hb hc hlen hm
    refine ⟨hb.holds (hc.stores hC hm) ?_, hc.unwraps hC hlen, .inl rfl⟩
    obtain ⟨salt, -, -, hsalt, -⟩ := hc.wrap
    rw [hc.header]
    exact ⟨salt, hsalt⟩
  have hread : ∀ {h : Host σ} {path : Path} {dek data : Bytes} {c : Container} {m : SecretMaterial},
      Begun h h' i path c dek m → Unlocks C data password c dek m → Rooted C (h'.sessions i) password c c dek :=
    fun hb hu => ⟨hb.holds hu.stores (boxes_of_parse hu.parse).2.2, hu.unwrap, .inl rfl⟩
  cases hs with
  | create hr =>
    obtain ⟨c, dek, salt, m, data, hc⟩ := create_ok hr
    exact ⟨c, dek, hbuilt hc.begun hc.built hc.key_length hc.install⟩
  | generated hr =>
    obtain ⟨h1, p, c, dek, salt, m, data, hc⟩ := createWithGeneratedKey_ok hr
    exact ⟨c, dek, hbuilt hc.begun hc.built hc.key_length hc.install⟩
  | opened hr =>
    obtain ⟨data, c, dek, m, -, -, hu, hb, -⟩ := openWallet_ok hr
    exact ⟨c, dek, hread hb hu⟩
  | imported hr =>
    obtain ⟨-, c, dek, m, -, hu, hb, -⟩ := importContainer_ok hr
    exact ⟨c, dek, hread hb hu⟩
  | migrated hr =>
    obtain ⟨-, raw, old, c, dek, stored, m, data, hm⟩ := migrateContainer_ok hr
    exact ⟨c, dek, hbuilt hm.begun hm.built hm.key_length hm.install⟩

namespace Accepts

variable {data : Bytes} {password : Str} {h' : Host σ}

theorem password_ok (ha : Accepts C M data password i h') : validatePassword password none = .ok () := by
  cases ha with
  | opened _ hr =>
    simp only [openWallet, bind_ok_iff, lift_ok_iff] at hr
    obtain ⟨_, _, ⟨hpassword, -⟩, -⟩ := hr
    exact hpassword
  | imported hr =>
    simp only [importContainer, bind_ok_iff, lift_ok_iff] at hr
    obtain ⟨_, _, ⟨hpassword, -⟩, -⟩ := hr
    exact hpassword

theorem holds (ha : Accepts C M data password i h') : ∃ c dek m, Unlocks C data password c dek m ∧
    data.length ≤ maxContainerBytes ∧ (h'.sessions i).Holds C c dek ∧
    h'.dataAt (h'.sessions i).path = some data := by
  cases ha with
  | opened hdata hr =>
    obtain ⟨data', c, dek, m, hdata', hlen, hu, hb, hsame⟩ := openWallet_ok hr
    cases hdata.symm.trans hdata'
    exact ⟨c, dek, m, hu, hlen, hb.holds hu.stores
      (boxes_of_parse hu.parse).2.2, by rw [hb.location, hsame.dataAt, hdata]⟩
  | imported hr =>
    obtain ⟨-, c, dek, m, hlen, hu, hb, hfile⟩ := importContainer_ok hr
    exact ⟨c, dek, m, hu, hlen, hb.holds hu.stores (boxes_of_parse hu.parse).2.2, by rw [hb.location, hfile]⟩

end Accepts

/-- What one operation that raised leaves of a session that agrees with its file. -/
structure Faithful (i : ℕ) (h h' : Host σ) (r : Except Raised WalletResult) : Prop where
  file : ∀ e, r = .error e → e ≠ storageOutcomeUnknown →
    h'.dataAt (h.sessions i).path = h.dataAt (h.sessions i).path
  held : ∀ e, r = .error e → e ≠ storageOutcomeUnknown →
    SameCore (h.sessions i) (h'.sessions i) ∨ (e = walletLocked ∧ (h'.sessions i).Locked)
  unknown : r = .error storageOutcomeUnknown → (h'.sessions i).Locked

theorem Faithful.returned {h h' : Host σ} (a : WalletResult) : Faithful i h h' (.ok a) := by
  constructor <;> simp

theorem Steadfast.operation (hC : C.Correct) (hM : M.Steady) {h h' : Host σ} {password : Str}
    {r : Except Raised WalletResult} {op : WalletOp P} (hs : Steadfast C i h password) (hr : op.run C M i h = (r, h')) :
    Steadfast C i h' (passwordThen op r password) := by
  rcases hs with hlocked | hagrees
  · exact .inl (walletOp_stays_locked hlocked hr)
  obtain ⟨data, c, dek, hdata, hunlocks, hholds, hkept⟩ := id hagrees
  have hstep := walletOp_stepped hC hholds hr
  cases hstep with
  | locked hlocked _ => exact .inl hlocked
  | kept hsame hop hfile =>
    rw [passwordThen_of_not_rekeys (WalletOp.not_rekeys_of_rewrites hop)]
    exact .inr (hagrees.of_core hsame (hfile hM))
  | saved hw hsaved => exact .inr (Agrees.of_saved hC hholds hkept hunlocks.unwrap hw hsaved _)

theorem Steadfast.faithful (hC : C.Correct) (hM : M.Steady) {h h' : Host σ} {password : Str}
    {r : Except Raised WalletResult} {op : WalletOp P} (hs : Steadfast C i h password) (hr : op.run C M i h = (r, h')) :
    Faithful i h h' r := by
  rcases hs with hlocked | ⟨data, c, dek, hdata, hunlocks, hholds, hkept⟩
  · rcases walletOp_locked hlocked.dek hr with ⟨rfl, rfl⟩ | ⟨-, ⟨a, rfl⟩, -⟩
    · exact ⟨fun _ _ _ => rfl, fun _ _ _ => .inl (.refl _), by simp⟩
    · exact .returned a
  have hout := walletOp_outcome hC hholds hr
  cases hout with
  | refused hstopped =>
    refine ⟨fun _ _ _ => hstopped.file, fun e he _ => ?_, fun h => absurd (Except.error.inj h) hstopped.known⟩
    cases he
    exact hstopped.held.imp_right fun hi => ⟨hi.error, hi.locked⟩
  | unknown hlost =>
    exact ⟨fun e he hne => absurd (Except.error.inj he).symm hne, fun e he hne => absurd (Except.error.inj he).symm hne,
      fun _ => hlost.locked⟩
  | gone hgone =>
    obtain ⟨s, hloses⟩ := hgone.loses
    exact absurd hloses (hM s)
  | read => exact .returned _
  | minted => exact .returned _
  | locked => exact .returned _
  | saved => exact .returned _

theorem SessionRun.steadfast (hC : C.Correct) (hM : M.Steady) {h0 h : Host σ} {password0 password : Str}
    {A : Session → WalletOp P → Except Raised WalletResult → Prop} (h0s : Steadfast C i h0 password0)
    (hrun : SessionRun C M A i h0 password0 h password) : Steadfast C i h password := by
  induction hrun with
  | start => exact h0s
  | operation op _ _ hr ih => exact ih.operation hC hM hr
  | elsewhere _ hsession hdata ih =>
    rcases ih with hlocked | hagrees
    · exact .inl (by rwa [hsession])
    · exact .inr (hagrees.of_core (by rw [hsession]; exact .refl _) hdata)

end DecentWallet
