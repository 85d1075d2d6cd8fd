import DecentWallet.Sanity.Lengths
import DecentWallet.Sanity.Reference
import DecentWallet.Sanity.SessionRun
import DecentWallet.Sanity.Writing

/-! What the wallet writes can be opened again: the reader accepts 16 MiB, and the writer does not look at the size.
A header that the wallet did not write itself is lost with the first update. -/

namespace DecentWallet

open Raised Prog

variable {σ : Type} {P : Platform} {C : Crypto} {M : Machine σ} {i : ℕ}

/-! ### Export -/

/-- The next operation locks the session for inactivity. -/
def Host.Idle (M : Machine σ) (h : Host σ) (i : ℕ) : Prop :=
  (h.sessions i).inactivitySeconds ≤ (M.monotonic h.world.state).1 - (h.sessions i).lastActivity

theorem touch_awake {h : Host σ} (hdek : (h.sessions i).dek ≠ none) (hidle : ¬h.Idle M i) :
    ∃ h', touch M i h = (.ok (), h') := by
  have hidle' : ¬(h.sessions i).inactivitySeconds ≤ (M.monotonic h.world.state).1 - (h.sessions i).lastActivity := hidle
  simp [touch, requireUnlocked, checkInactivity, session, putSession, ask, bind_run, Prog.reject, reject, hdek, hidle',
    Host.setState]

theorem exportContainer_working (hM : M.Working) {h : Host σ} {c : Container} {dek data : Bytes}
    (hs : (h.sessions i).Holds C c dek) (hidle : ¬h.Idle M i) (hfile : h.dataAt (h.sessions i).path = some data)
    (hparse : parseContainer C data currentFormatVersion = .ok c) :
    ∃ h', exportContainer C M i h = (.ok data, h') ∧ Ready i h h' := by
  obtain ⟨h1, htouch⟩ := touch_awake (by simp [hs.key]) hidle
  have hready := touch_checks.ready htouch
  obtain ⟨s, hread⟩ := readContainer_working hM (h1.sessions i).path h1
  rw [hready.path, hready.file, hfile] at hread
  have hlen := (parseContainer_eq_ok.1 hparse).1
  dsimp only at hread
  rw [List.take_of_length_le (by omega)] at hread
  have hrun : exportContainer C M i h = (.ok data, h1.setState s) := by
    simp only [exportContainer, bind_ok_iff, lift_ok_iff, reject_ok_iff, pure_ok_iff]
    refine ⟨(), h1, htouch, _, h1, rfl, data, _, by rw [hready.path]; exact hread, c, _, ⟨hparse, rfl⟩, (), _,
      ⟨?_, rfl⟩, rfl, rfl⟩
    simp [hready.same.envelope, hs.envelope, Container.same]
  exact ⟨_, hrun, exportContainer_checks.ready hrun⟩

/-! ### Reopening -/

/-- The file opens to what the session holds, and so does its export wherever there is no file yet. -/
structure Reopens (C : Crypto) (M : Machine σ) (h : Host σ) (i : ℕ) (password : Str) : Prop where
  opens : ∀ minutes, validateInactivity minutes = .ok () → ∃ j h',
    openWallet C M (h.sessions i).path password minutes h = (.ok j, h') ∧
      (h'.sessions j).material = (h.sessions i).material
  transfers : ∀ minutes path, validateInactivity minutes = .ok () → h.dataAt path = none → ¬h.Idle M i →
    ∃ raw h1 j h2, exportContainer C M i h = (.ok raw, h1) ∧
      importContainer C M path raw password minutes h1 = (.ok j, h2) ∧
      (h2.sessions j).material = (h.sessions i).material

theorem reopens_iff (hC : C.Correct) (hM : M.Working) {h : Host σ} {c : Container} {salt dek data : Bytes}
    {password : Str} (hs : (h.sessions i).Holds C c dek) (hw : c.Written salt) (hdata : serialize c = .ok data)
    (hfile : h.dataAt (h.sessions i).path = some data) (hpassword : validatePassword password none = .ok ())
    (hkey : ∀ d, unwrapDek C c password currentFormatVersion = .ok d → d = dek) :
    Reopens C M h i password ↔
      data.length ≤ maxContainerBytes ∧ unwrapDek C c password currentFormatVersion = .ok dek := by
  have hparse := parseContainerBody_serialize hC hw hdata
  constructor
  · intro hreopens
    obtain ⟨j, h', hr, -⟩ := hreopens.opens 5 (by decide)
    obtain ⟨data', c', d, m, hdata', hlen, hu, -⟩ := openWallet_ok hr
    cases hfile.symm.trans hdata'
    cases hparse.symm.trans hu.parse
    exact ⟨hlen, hkey d hu.unwrap ▸ hu.unwrap⟩
  · intro hopens
    obtain ⟨hlen, hunwrap⟩ := hopens
    have hu := unlocks_serialize hC hw hs.stores hdata hunwrap
    refine ⟨fun minutes hminutes => ?_, fun minutes path hminutes hnone hidle => ?_⟩
    · obtain ⟨j, h', hr, hb, -⟩ := openWallet_working hM hpassword hminutes hfile hlen hu
      exact ⟨j, h', hr, hb.material⟩
    · obtain ⟨h1, hexport, hready⟩ :=
        exportContainer_working hM hs hidle hfile (parseContainer_eq_ok.2 ⟨hlen, hparse⟩)
      obtain ⟨j, h2, himport, hb⟩ :=
        importContainer_working hM hpassword hminutes (by rw [hready.dataAt, hnone]) hlen hu
      exact ⟨data, h1, j, h2, hexport, himport, hb.material⟩

/-- A payload without signing fields is all there is. -/
theorem install_free {payload : Payload} (hfree : hasSigningField payload = false) :
    installSecretMaterial C payload = .ok ⟨payload, none, none⟩ := by
  have hnot : ∀ k ∈ signingFields, payload.has k = false := fun k hk =>
    Bool.eq_false_iff.2 (List.any_eq_false.1 hfree k hk)
  have hok : SecretMaterial.Ok C ⟨payload, none, none⟩ :=
    { noSeed := hnot _ (by decide)
      noPendingSeed := hnot _ (by decide)
      inactive := fun _ => ⟨get_of_not_has (hnot _ (by decide)), rfl, hnot _ (by decide)⟩
      active := nofun
      unstaged := fun _ => get_of_not_has (hnot _ (by decide))
      staged := nofun
      intent := fun hintent => absurd hintent (by rw [hnot intentKey (by decide)]; decide) }
  exact SecretMaterial.install_stored hok

/-- The bytes of a new wallet's file. -/
def createdSize (payload : Payload) : ℕ := 467 + (payload.size + 2) / 3 * 4

/-- The bytes of the file that `update_payload` writes for a session. -/
def updatedSize (s : Session) (payload : Payload) : ℕ :=
  match s.envelope, updatedPayload s payload with
  | some c, .ok updated => containerSize c.wrap (SecretMaterial.stored ⟨updated, s.seed, s.pendingSeed⟩).size
  | _, _ => 0

theorem Created.size (hC : C.Correct) (hlen : C.KeepsLength) {path : Path} {password : Str} {p : Payload}
    {h h' : Host σ} {c : Container} {dek salt data : Bytes} {m : SecretMaterial}
    (hc : Created C path password p h h' i c dek salt m data) : data.length = createdSize p := by
  rw [length_serialize hC hlen (hc.built.written hC hc.salt_length hc.install) hc.built.boxes hc.written]
  obtain ⟨_, kek, nonce, -, -, hn, hwrap⟩ := hc.built.wrap
  simp only [wrapDek, bind_eq_ok] at hwrap
  obtain ⟨aad, -, hseal⟩ := hwrap
  obtain ⟨hnonce, hcipher, htag⟩ := size_sealBox hC hlen hseal hn
  rw [hc.key_length] at hcipher
  simp only [containerSize, createdSize, hnonce, hcipher, htag, keyLength]

theorem create_reopens_iff (hC : C.Correct) (hlen : C.KeepsLength) {M' : Machine σ} (hM' : M'.Working) {path : Path}
    {password confirmation : Str} {payload : Payload} {minutes : ℤ} {h h' : Host σ}
    (hr : create C M path password confirmation payload minutes h = (.ok i, h')) :
    (h'.sessions i).material = ⟨payload, none, none⟩ ∧ (h'.sessions i).path = path ∧
      (Reopens C M' h' i password ↔ createdSize payload ≤ maxContainerBytes) := by
  obtain ⟨c, dek, salt, m, data, hc⟩ := create_ok hr
  simp only [create, createStorage, bind_ok_iff, reject_ok_iff, lift_ok_iff, Bool.not_eq_true, validatePassword,
    bind_eq_ok, reject_eq_ok] at hr
  obtain ⟨_, _, ⟨hfree, -⟩, _, _, ⟨⟨_, hlong, -⟩, -⟩, -⟩ := hr
  have hpassword : validatePassword password none = .ok () := by
    simp only [validatePassword, bind_eq_ok, reject_eq_ok]
    exact ⟨(), hlong, by simp⟩
  cases hc.install.symm.trans (install_free hfree)
  have hwritten := hc.built.written hC hc.salt_length hc.install
  have hunwrap := hc.built.unwraps hC hc.key_length
  have hholds : (h'.sessions i).Holds C c dek := hc.begun.holds (hc.built.stores hC hc.install) (by
    rw [hwritten.kdf]
    exact ⟨salt, b64Decode_encode_length hwritten.salt⟩)
  refine ⟨hc.begun.material, hc.begun.location, ?_⟩
  rw [reopens_iff hC hM' hholds hwritten hc.written (by rw [hc.begun.location, hc.after]) hpassword
    fun d hd => Except.ok.inj (hd.symm.trans hunwrap), hc.size hC hlen]
  simp [hunwrap]

theorem update_reopens_iff (hC : C.Correct) (hlen : C.KeepsLength) (hbind : C.BindsAad) {M' : Machine σ}
    (hM' : M'.Working) {root c : Container} {dek : Bytes} {password : Str} {payload : Payload} {h h' : Host σ}
    (hroot : Rooted C (h.sessions i) password root c dek) (hpassword : validatePassword password none = .ok ())
    (hr : updatePayload C M i payload h = (.ok (), h')) :
    Reopens C M' h' i password ↔ updatedSize (h.sessions i) payload ≤ maxContainerBytes ∧ root.HeaderKept := by
  obtain ⟨c', m, hturn, hresealed, hsaved, -⟩ := (updatePayload_ends hC hroot.holds payload).ok hr
  have hreseals := hroot.reseals hresealed
  obtain ⟨salt, -, hwritten⟩ := hreseals.header
  obtain ⟨data, hserialize, hfile⟩ := hsaved.file
  have hsize : data.length = updatedSize (h.sessions i) payload := by
    obtain ⟨-, updated, hupdated, rfl⟩ := id hturn
    rw [length_serialize hC hlen hwritten hresealed.boxes hserialize, hresealed.reseals.wrap]
    simp only [updatedSize, hroot.holds.envelope, hupdated]
  have hwrites : Writes (P := Vector.platform) C (h.sessions i) c dek (.updatePayload payload) c' m :=
    .update hturn hresealed
  have hholds := hsaved.holds hroot.holds hwrites
  have hkept : ∀ {d}, unwrapDek C c' password currentFormatVersion = .ok d → root.HeaderKept := fun hd =>
    hreseals.headerKept hbind hroot.unwrap hd
  have hopens : root.HeaderKept → unwrapDek C c' password currentFormatVersion = .ok dek := fun hk =>
    hreseals.unwraps hk hroot.unwrap
  rw [reopens_iff hC hM' hholds hwritten hserialize (by rw [hsaved.path, hfile]) hpassword
    fun d hd => Except.ok.inj (hd.symm.trans (hopens (hkept hd))), hsize]
  exact and_congr_right fun _ => ⟨hkept, hopens⟩

/-- `update_payload` and `change_password` return for an unlocked session only. -/
theorem updatePayload_unlocked {payload : Payload} {h h' : Host σ} (hr : updatePayload C M i payload h = (.ok (), h')) :
    ¬(h.sessions i).Locked := by
  intro hlocked
  rw [updatePayload, touch_locked hlocked.dek] at hr
  cases hr

theorem changePassword_unlocked {new confirmation : Str} {h h' : Host σ}
    (hr : changePassword C M i new confirmation h = (.ok (), h')) : ¬(h.sessions i).Locked := by
  intro hlocked
  rw [changePassword, touch_locked hlocked.dek] at hr
  cases hr

/-- What `create` has written opens again exactly where it is within 16 MiB. So it is with `update_payload` once a
password was set; before that, the header of the container that the session began with must print as the wallet's own
besides. -/
theorem written_reopens_iff (hC : C.Correct) (hlen : C.KeepsLength) (hbind : C.BindsAad) {M' : Machine σ}
    (hM' : M'.Working) :
    (∀ {path password confirmation payload minutes} {h h' : Host σ},
      create C M path password confirmation payload minutes h = (.ok i, h') →
      (h'.sessions i).material = ⟨payload, none, none⟩ ∧ (h'.sessions i).path = path ∧
        (Reopens C M' h' i password ↔ createdSize payload ≤ maxContainerBytes)) ∧
    (∀ {h0 h h' : Host σ} {c password0 password payload}, Started C M (fun _ => True) i password0 h0 →
      (h0.sessions i).envelope = some c →
      SessionRun (P := P) C M (fun _ op r => ¬op.Rekeys r) i h0 password0 h password →
      validatePassword password none = .ok () → updatePayload C M i payload h = (.ok (), h') →
      (Reopens C M' h' i password ↔ updatedSize (h.sessions i) payload ≤ maxContainerBytes ∧ c.HeaderKept)) ∧
    ∀ {h0 h1 h2 h h' : Host σ} {password0 password1 new confirmation password payload},
      Started C M (fun _ => True) i password0 h0 →
      SessionRun (P := P) C M (fun _ _ _ => True) i h0 password0 h1 password1 →
      changePassword C M i new confirmation h1 = (.ok (), h2) →
      SessionRun (P := P) C M (fun _ _ _ => True) i h2 new h password → validatePassword password none = .ok () →
      updatePayload C M i payload h = (.ok (), h') →
      (Reopens C M' h' i password ↔ updatedSize (h.sessions i) payload ≤ maxContainerBytes) := by
  refine ⟨create_reopens_iff hC hlen hM', ?_, ?_⟩
  · intro h0 h h' c password0 password payload hstart hc hrun hpassword hr
    obtain ⟨c0, dek, hroot⟩ := hstart.rooted hC
    cases hc.symm.trans hroot.holds.envelope
    rcases hrun.rooted hC id hroot with hlocked | ⟨c', hroot'⟩
    · exact absurd hlocked (updatePayload_unlocked hr)
    · exact update_reopens_iff hC hlen hbind hM' hroot' hpassword hr
  · intro h0 h1 h2 h h' password0 password1 new confirmation password payload hstart hrun hchange hrun' hpassword hr
    obtain ⟨c0, dek, hroot⟩ := hstart.rooted hC
    rcases hrun.rooted_of hC (Q := fun _ => True) (fun _ => trivial) trivial hroot with hlocked | ⟨root1, c1, hroot1, -⟩
    · exact absurd hlocked (changePassword_unlocked hchange)
    have hrekey : (WalletOp.changePassword new confirmation : WalletOp P).run C M i h1 = (.ok .nothing, h2) := by
      rw [WalletOp.run, map_ok_iff]
      exact ⟨_, hchange, rfl⟩
    have hrekeys : (WalletOp.changePassword new confirmation : WalletOp P).Rekeys (.ok .nothing) := ⟨⟨_, _, rfl⟩, rfl⟩
    rcases hroot1.operation hC hrekey with hlocked | ⟨root2, c2, hroot2, ⟨-, hnot⟩ | ⟨-, hkept⟩⟩
    · exact absurd (hrun'.locked hlocked) (updatePayload_unlocked hr)
    · exact absurd hrekeys hnot
    rcases hrun'.rooted_of hC id hkept hroot2 with hlocked | ⟨root', c', hroot', hkept'⟩
    · exact absurd hlocked (updatePayload_unlocked hr)
    · rw [update_reopens_iff hC hlen hbind hM' hroot' hpassword hr, and_iff_left hkept']

namespace Sample

/-- A payload of one entry. -/
def note (b : Bytes) : Payload := Payload.empty.setBytes "note" b

/-- The file of an empty wallet with a float in its header. -/
def foreignHost : Host ℕ :=
  let c := (buildV2Envelope binding machine password (List.replicate 32 9) floatHeader .empty host).1
  holding ((c.bind serialize).toOption.getD [])

def foreignOpened : Host ℕ := (openWallet binding machine (str "w") password 5 foreignHost).2

/-- The wallet has another password. -/
def rekeyed : Host ℕ :=
  (changePassword binding machine 0 (str "another password") (str "another password") foreignOpened).2

def foreignNoted : Host ℕ := (updatePayload binding machine 0 (note [1, 2, 3]) rekeyed).2

theorem foreign_facts : (openWallet binding machine (str "w") password 5 foreignHost).1 = .ok 0 ∧
    (changePassword binding machine 0 (str "another password") (str "another password") foreignOpened).1 = .ok () ∧
    (updatePayload binding machine 0 (note [1, 2, 3]) rekeyed).1 = .ok () ∧
    updatedSize (rekeyed.sessions 0) (note [1, 2, 3]) ≤ maxContainerBytes := by
  decide +kernel

end Sample

/-- A wallet with a foreign header that was opened, given another password and updated opens again. -/
theorem written_reopens_iff_rekeyed : Reopens Sample.binding Sample.machine Sample.foreignNoted 0
    (str "another password") := by
  obtain ⟨hopen, hchange, hupdate, hsize⟩ := Sample.foreign_facts
  obtain ⟨-, -, hrekeyed⟩ := written_reopens_iff (P := Vector.platform) (M := Sample.machine)
    (i := 0) Sample.binding_correct Sample.tagging_keepsLength Sample.binding_bindsAad Sample.machine_working
  have hstart : Started Sample.binding Sample.machine (fun _ => True) 0 Sample.password Sample.foreignOpened :=
    .opened (run_eq hopen) fun _ _ => trivial
  have hrekey : changePassword Sample.binding Sample.machine 0 (str "another password") (str "another password")
      Sample.foreignOpened = (.ok (), Sample.rekeyed) := run_eq hchange
  have hnoted : updatePayload Sample.binding Sample.machine 0 (Sample.note [1, 2, 3]) Sample.rekeyed =
      (.ok (), Sample.foreignNoted) := run_eq hupdate
  exact (hrekeyed hstart .start hrekey .start (by decide) hnoted).2 hsize

/-! ### Payloads over the limit -/

namespace Sample

theorem checked_total : checked.Total :=
  ⟨fun _ _ => by simp [checked, tagging], fun _ _ _ _ => by simp [checked, tagging]⟩

theorem length_le_createdSize (b : Bytes) : b.length ≤ createdSize (note b) := by
  have hsize : (note b).size = typedSize "map" (max 2 ((utf8Raw (quote (str "note"))).length +
      typedSize "bytes" ((b.length + 2) / 3 * 4 + 2) + 4 + 1)) := rfl
  simp only [createdSize, hsize, typedSize]
  omega

theorem create_note (b : Bytes) :
    ∃ j h', create checked machine (str "w") password password (note b) 5 host = (.ok j, h') := by
  have hfree : hasSigningField (note b) = false := rfl
  obtain ⟨encoded, hencoded⟩ := encodePayload_ok (C := checked) (p := note b) rfl fun _ => rfl
  obtain ⟨j, h', hr⟩ : ∃ j h', createStorage checked machine (str "w") password password (note b) 5 host = (.ok j,
    h') := createStorage_total checked_total machine_working (scalars_str _) (by decide) (by
    decide) hencoded (install_free hfree) rfl
  refine ⟨j, h', ?_⟩
  rw [create, bind_run_ok (a := ()) (reject_ok_iff.2 ⟨by simp [hfree], rfl⟩)]
  exact hr

end Sample

/-- A wallet with a payload over the limit is created, and its file is refused. -/
theorem written_over_limit : ∃ j h', create Sample.checked Sample.machine (str "w") Sample.password Sample.password
    (Sample.note (List.replicate (maxContainerBytes + 1) 0)) 5 Sample.host = (.ok j, h') ∧
      ∀ minutes k h'',
        openWallet Sample.checked Sample.machine (str "w") Sample.password minutes h' ≠ (.ok k, h'') := by
  obtain ⟨j, h', hr⟩ := Sample.create_note (List.replicate (maxContainerBytes + 1) 0)
  refine ⟨j, h', hr, fun minutes k h'' hopen => ?_⟩
  obtain ⟨c, dek, salt, m, data, hc⟩ := create_ok hr
  obtain ⟨data', -, -, -, hdata', hsize, -⟩ := openWallet_ok hopen
  cases hc.after.symm.trans hdata'
  have hlong := Sample.length_le_createdSize (List.replicate (maxContainerBytes + 1) 0)
  rw [← hc.size Sample.checked_correct Sample.tagging_keepsLength, List.length_replicate] at hlong
  omega

end DecentWallet
