import DecentWallet.Sanity.Lengths

/-! Migrating a container of version 1: what it held is what the new container holds, and a migration that fails leaves
the file as it was, unless its write loses it. The new container is never longer than the old one, so it is opened
again. -/

namespace DecentWallet

open Raised Prog

variable {σ : Type} {C : Crypto} {M : Machine σ} {path : Path} {password : Str} {minutes : ℤ} {h h' : Host σ}

/-- `raw` is a container of version 1 that the password unlocks, to the data key `dek` and the material `m`. -/
def HeldInVersionOne (C : Crypto) (raw : Bytes) (password : Str) (dek : Bytes) (m : SecretMaterial) : Prop :=
  ∃ c stored, parseContainer C raw 1 = .ok c ∧ unlockEnvelope C c password 1 = .ok (dek, stored) ∧
    installSecretMaterial C stored = .ok m

/-! ### The new container -/

theorem Built.fits (hC : C.Correct) (hlen : C.KeepsLength) {old c : Container} {dek : Bytes} {stored : Payload}
    (hunlock : unlockEnvelope C old password 1 = .ok (dek, stored)) (hb : Built C password dek old.kdf stored c) :
    c.wrap.Fits old.wrap ∧ c.payload.Fits old.payload := by
  obtain ⟨hunwrap, hdecode⟩ := unlockEnvelope_eq_ok.1 hunlock
  obtain ⟨-, kek', aad', -, -, -, hopen, -⟩ := unwrapDek_eq_ok.1 hunwrap
  obtain ⟨paad, plaintext, -, hopen', hopened⟩ := decodePayload_eq_ok.1 hdecode
  obtain ⟨salt, kek, nonce, -, -, hn, hwrap⟩ := hb.wrap
  simp only [wrapDek, bind_eq_ok] at hwrap
  obtain ⟨aad, -, hwrap⟩ := hwrap
  obtain ⟨encoded, nonce', hn', hencoded, hbox⟩ := hb.boxes
  simp only [sealPayload, bind_eq_ok] at hbox
  obtain ⟨aad2, -, hbox⟩ := hbox
  have hle : encoded.length ≤ plaintext.length := by
    rw [length_encodePayload hencoded]
    exact size_decodeOpened hopened
  exact ⟨fits_sealBox hC hlen hopen hwrap hn le_rfl, fits_sealBox hC hlen hopen' hbox hn' hle⟩

/-- The bytes that a migration writes can be opened, and hold what was migrated. -/
theorem Migrated.unlocks (hC : C.Correct) (hlen : C.KeepsLength) (hf : C.Floats) {j : ℕ} {raw data dek : Bytes}
    {old c : Container} {stored : Payload} {m : SecretMaterial}
    (hm : Migrated C path password h h' j raw old c dek stored m data) :
    Unlocks C data password c dek m ∧ data.length ≤ maxContainerBytes := by
  obtain ⟨hraw, hparse⟩ := parseContainer_eq_ok.1 hm.parse
  have hstores := hm.built.stores hC hm.install
  obtain ⟨hfits, hfits'⟩ := hm.built.fits hC hlen hm.unlock
  obtain ⟨hle, hlegible⟩ := length_serialize_le hf hparse hm.written hm.built.header hm.built.version hfits hfits'
  obtain ⟨j, -, hj⟩ := parseContainerBody_eq_ok.1 hparse
  have hreadable : c.Readable C :=
    ⟨by rw [hm.built.header, parseKdf_toJson hj.kdf], hlegible, hstores.wrap, hstores.payload⟩
  exact ⟨⟨hreadable.parse hC hm.built.version hm.written, hm.built.unwraps hC hm.key_length, stored,
    hm.built.boxes.decode hC, hm.install⟩, hle.trans hraw⟩

/-! ### Calls on the migrated file -/

theorem openWallet_unlocks {data dek : Bytes} {c : Container} {m : SecretMaterial} {j : ℕ}
    (hdata : h.dataAt path = some data) (hu : Unlocks C data password c dek m)
    (hr : openWallet C M path password minutes h = (.ok j, h')) :
    (h'.sessions j).dek = some dek ∧ (h'.sessions j).material = m := by
  obtain ⟨data', c', dek', m', hdata', -, hu', hb, -⟩ := openWallet_ok hr
  cases hdata.symm.trans hdata'
  cases hu.parse.symm.trans hu'.parse
  cases hu.unwrap.symm.trans hu'.unwrap
  obtain ⟨stored, hstored, hinstall⟩ := hu.content
  obtain ⟨stored', hstored', hinstall'⟩ := hu'.content
  cases hstored.symm.trans hstored'
  cases hinstall.symm.trans hinstall'
  exact ⟨hb.key, hb.material⟩

/-- A container has one version. -/
theorem version_of_parse {data : Bytes} {v v' : ℤ} {c c' : Container} (hp : parseContainerBody C data v = .ok c)
    (hp' : parseContainerBody C data v' = .ok c') : v = v' := by
  obtain ⟨j, hj, hc⟩ := parseContainerBody_eq_ok.1 hp
  obtain ⟨j', hj', hc'⟩ := parseContainerBody_eq_ok.1 hp'
  cases hj.symm.trans hj'
  have := hc.version.symm.trans hc'.version
  rw [← hc.expected, ← hc'.expected]
  exact Except.ok.inj this

theorem migrateContainer_current {data : Bytes} {c : Container} (hdata : h.dataAt path = some data)
    (hparse : parseContainerBody C data currentFormatVersion = .ok c) (j : ℕ) :
    migrateContainer C M path password minutes h ≠ (.ok j, h') := by
  intro hr
  obtain ⟨-, raw, old, c', dek, stored, m, data', hm⟩ := migrateContainer_ok hr
  cases hdata.symm.trans hm.before
  exact absurd (version_of_parse hparse (parseContainer_eq_ok.1 hm.parse).2) (by decide)

/-! ### A migration that fails -/

/-- The migration comes to its write, and the write loses the file. -/
structure MigrationLost (C : Crypto) (M : Machine σ) (path : Path) (password : Str) (minutes : ℤ) (h : Host σ) :
    Prop where
  accepted : validatePassword password none = .ok () ∧ validateInactivity minutes = .ok ()
  read : (M.fs .readBytes h.world.state).1 = .done
  writes : ∃ raw old dek stored m c data h1, h.dataAt path = some raw ∧ parseContainer C raw 1 = .ok old ∧
    unlockEnvelope C old password 1 = .ok (dek, stored) ∧ installSecretMaterial C stored = .ok m ∧
    buildV2Envelope C M password dek old.kdf stored (h.setState (M.fs .readBytes h.world.state).2) = (.ok c, h1) ∧
    serialize c = .ok data ∧ M.Loses (M.monotonic h1.world.state).2

theorem state_initSession {dek : Bytes} {stored : Payload} {c : Container} {j : ℕ}
    (hr : initSession C M path dek stored c minutes h = (.ok j, h')) :
    h'.world.state = (M.monotonic h.world.state).2 := by
  simp only [initSession, bind_ok_iff, lift_ok_iff] at hr
  obtain ⟨m, _, ⟨-, rfl⟩, now, h1, hask, hr⟩ := hr
  cases hask
  cases hr
  rfl

/-- A migration that fails leaves the file, or raises that the outcome is unknown, or loses it. -/
theorem migrateContainer_error {e : Raised} (hr : migrateContainer C M path password minutes h = (.error e, h')) :
    h'.dataAt path = h.dataAt path ∨ e = storageOutcomeUnknown ∨ MigrationLost C M path password minutes h := by
  simp only [migrateContainer, bind_error_iff, lift_error_iff, lift_ok_iff, mapError_error_iff] at hr
  obtain ⟨-, rfl⟩ | ⟨_, _, ⟨hpassword, rfl⟩, ⟨-, rfl⟩ | ⟨_, _, ⟨hminutes, rfl⟩, hread | ⟨raw, h1, hread, hr⟩⟩⟩ := hr
  · exact .inl rfl
  · exact .inl rfl
  · exact .inl (((readContainer_same path).of_run hread).dataAt path)
  obtain ⟨hdone, rfl, data, hdata, rfl⟩ := readContainer_ok_iff.1 hread
  rw [parseContainer_take] at hr
  obtain ⟨-, rfl⟩ | ⟨old, _, ⟨hparse, rfl⟩, e', ⟨-, rfl⟩ | ⟨⟨dek, stored⟩, _, ⟨hunlock, rfl⟩, hr⟩, rfl⟩ := hr
  · exact .inl rfl
  · exact .inl rfl
  obtain hbuild | ⟨c, h2, hbuild, hinit | ⟨j, h3, hinit, ⟨-, rfl⟩ | ⟨new, _, ⟨hnew, rfl⟩, hwrite⟩⟩⟩ := hr
  · exact .inl (((buildV2Envelope_same _ _ _ _).of_run hbuild).dataAt path)
  · refine .inl ?_
    rw [SameFiles.dataAt ((initSession_same _ _ _ _ _).of_run hinit),
      SameFiles.dataAt ((buildV2Envelope_same _ _ _ _).of_run hbuild)]
    rfl
  all_goals
    have hbefore : h3.dataAt path = h.dataAt path := by
      rw [SameFiles.dataAt ((initSession_same _ _ _ _ _).of_run hinit),
        SameFiles.dataAt ((buildV2Envelope_same _ _ _ _).of_run hbuild)]
      rfl
  · exact .inl hbefore
  obtain ⟨h4, hatomic, rfl⟩ := writeOrLock_error_iff.1 hwrite
  have hend := atomicWrite_replace hatomic
  rw [state_initSession hinit] at hend
  cases hend with
  | unknown => exact .inr (.inl rfl)
  | failed _ hkept => exact .inl (hkept.trans hbefore)
  | lost hloses =>
    obtain ⟨m, hm, -⟩ := initSession_ok hinit
    exact .inr (.inr ⟨⟨hpassword, hminutes⟩, hdone, data, old, dek, stored, m, c, new, h2, hdata, hparse, hunlock, hm,
      hbuild, hnew, hloses⟩)

theorem MigrationLost.run (hl : MigrationLost C M path password minutes h) :
    ∃ h', migrateContainer C M path password minutes h = (.error storageFailure, h') ∧
    h'.dataAt path ≠ h.dataAt path := by
  obtain ⟨raw, old, dek, stored, m, c, data, h1, hdata, hparse, hunlock, hm, hbuild, hnew, hloses⟩ := hl.writes
  obtain ⟨h2, hinit⟩ : ∃ h2, initSession C M path dek stored c minutes h1 = (.ok h1.nextSession, h2) := by
    obtain ⟨h2, hinit, -⟩ := initSession_begun (M := M) hm h1 path c dek
    exact ⟨h2, hinit⟩
  rw [← state_initSession hinit] at hloses
  obtain ⟨h3, hatomic, hgone⟩ := atomicWrite_loses hloses path data
  have hread := readContainer_ok_iff.2 ⟨hl.read, rfl, raw, hdata, rfl⟩
  obtain ⟨h4, hh4⟩ : ∃ h4, h4 = (h3.invalidate (h3.sessions h1.nextSession).capabilities).setSession h1.nextSession
    (h3.sessions h1.nextSession).locked := ⟨_, rfl⟩
  have hwrite := writeOrLock_error_iff.2 ⟨h3, hatomic, hh4⟩
  refine ⟨h4, ?_, fun hsame => ?_⟩
  · simp only [migrateContainer, bind_error_iff, lift_error_iff, lift_ok_iff, mapError_error_iff]
    exact .inr ⟨(), h, ⟨hl.accepted.1, rfl⟩, .inr ⟨(), h, ⟨hl.accepted.2, rfl⟩, .inr ⟨_, _, hread, .inr ⟨old, _,
      ⟨by rw [parseContainer_take, hparse], rfl⟩, storageFailure,
      .inr ⟨(dek, stored), _, ⟨hunlock, rfl⟩, .inr ⟨c, h1, hbuild,
        .inr ⟨_, h2, hinit, .inr ⟨data, h2, ⟨hnew, rfl⟩, hwrite⟩⟩⟩⟩, rfl⟩⟩⟩⟩
  · rw [hdata, hh4] at hsame
    cases hgone.symm.trans hsame

/-- A migration that returns leaves what the container of version 1 held, for whoever opens the file next, and is not
done twice. One that raises leaves the file, unless it raises that the outcome is unknown, exactly where its write does
not lose the file. -/
theorem migration_keeps_content (hC : C.Correct) (hlen : C.KeepsLength) (hf : C.Floats) {r : Except Raised ℕ}
    (hr : migrateContainer C M path password minutes h = (r, h')) :
    (∀ j, r = .ok j → ∃ raw dek m, h.dataAt path = some raw ∧ HeldInVersionOne C raw password dek m ∧
      (h'.sessions j).dek = some dek ∧ (h'.sessions j).material = m ∧
      ∀ g : Host σ, g.dataAt path = h'.dataAt path →
        (∀ M' : Machine σ, ∀ minutes' k g', openWallet C M' path password minutes' g = (.ok k, g') →
          (g'.sessions k).dek = some dek ∧ (g'.sessions k).material = m) ∧
        (∀ M' : Machine σ, M'.Working → ∀ minutes', 1 ≤ minutes' → minutes' ≤ 15 →
          ∃ k g', openWallet C M' path password minutes' g = (.ok k, g')) ∧
        ∀ M' : Machine σ, ∀ password' minutes' k g', migrateContainer C M' path password' minutes' g ≠ (.ok k, g')) ∧
    ((∀ e, r = .error e → e ≠ storageOutcomeUnknown → h'.dataAt path = h.dataAt path) ↔
      ¬MigrationLost C M path password minutes h) := by
  refine ⟨fun j hj => ?_, ⟨fun hkept hlost => ?_, fun hnot e he hne => ?_⟩⟩
  · subst hj
    obtain ⟨hpassword, raw, old, c, dek, stored, m, data, hm⟩ := migrateContainer_ok hr
    obtain ⟨hu, hsize⟩ := hm.unlocks hC hlen hf
    refine ⟨raw, dek, m, hm.before, ⟨old, stored, hm.parse, hm.unlock, hm.install⟩, hm.begun.key, hm.begun.material,
      fun g hg => ?_⟩
    rw [hm.after] at hg
    refine ⟨fun M' minutes' k g' ho => openWallet_unlocks hg hu ho, fun M' hM' minutes' hlo hhi => ?_,
      fun M' password' minutes' k g' => migrateContainer_current hg hu.parse k⟩
    have hminutes : validateInactivity minutes' = .ok () := by simp [validateInactivity, reject, hlo, hhi]
    obtain ⟨k, g', ho, -, -⟩ := openWallet_working hM' hpassword hminutes hg hsize hu
    exact ⟨k, g', ho⟩
  · obtain ⟨h1, hrun, hgone⟩ := hlost.run
    cases hrun.symm.trans hr
    exact hgone (hkept _ rfl (by decide))
  · subst he
    rcases migrateContainer_error hr with hsame | hunknown | hlost
    · exact hsame
    · exact absurd hunknown hne
    · exact absurd hlost hnot

/-! ### One migration -/

namespace Sample

/-- A box of `checked` under the nonce of the small machine. -/
def oldBox (aad : Except Raised Bytes) (text : Bytes) : SealedBox :=
  ((aad.bind fun a => sealBox checked [] (List.replicate 24 5) a text).toOption).getD ⟨[], [], []⟩

/-- A container of version 1 with a float in its header, around an empty payload. -/
def oldContainer : Container where
  version := 1
  kdf := floatHeader
  wrap := oldBox (wrapAad floatHeader 1) (List.replicate 32 9)
  payload := oldBox (payloadAad ⟨base64Encode (List.replicate 24 5), [], []⟩ 1)
    ((encodePayload checked .empty).toOption.getD [])

def oldHost : Host ℕ := holding ((serialize oldContainer).toOption.getD [])

/-- The first sync of the directory fails, and `Path.exists` ignores no error. -/
theorem oldHost_facts : (migrateContainer checked machine (str "w") Sample.password 5 oldHost).1 = .ok 0 ∧
    (migrateContainer checked (faulty 0 .done) (str "w") Sample.password 5 oldHost).1 = .error .storageFailure := by
  decide +kernel

end Sample

/-- The premises hold at a container with a float in its header: a migration of it returns, and where the directory
cannot be synced, one that fails leaves the file. -/
theorem migration_keeps_content_float : Sample.checked.Correct ∧ Sample.checked.KeepsLength ∧ Sample.checked.Floats ∧
    (∃ h', migrateContainer Sample.checked Sample.machine (str "w") Sample.password 5 Sample.oldHost = (.ok 0, h') ∧
      ∃ raw dek m, Sample.oldHost.dataAt (str "w") = some raw ∧
        HeldInVersionOne Sample.checked raw Sample.password dek m ∧ ∃ k g',
          openWallet Sample.checked Sample.machine (str "w") Sample.password 5 h' = (.ok k, g') ∧
            (g'.sessions k).dek = some dek ∧ (g'.sessions k).material = m) ∧
    ∃ h', migrateContainer Sample.checked (Sample.faulty 0 .done) (str "w") Sample.password 5 Sample.oldHost =
      (.error storageFailure, h') ∧ h'.dataAt (str "w") = Sample.oldHost.dataAt (str "w") := by
  obtain ⟨hok, hfails⟩ := Sample.oldHost_facts
  have hrun := Prog.run_eq hok
  obtain ⟨raw, dek, m, hraw, hheld, -, -, hafter⟩ := (migration_keeps_content Sample.checked_correct
    Sample.tagging_keepsLength Sample.tagging_floats hrun).1 0 rfl
  obtain ⟨hsame, hopens, -⟩ := hafter _ rfl
  obtain ⟨k, g', ho⟩ := hopens Sample.machine Sample.machine_working 5 (by decide) (by decide)
  have hfailed := Prog.run_eq hfails
  have hkept :=
    (migration_keeps_content Sample.checked_correct Sample.tagging_keepsLength Sample.tagging_floats hfailed).2.2
  refine ⟨Sample.checked_correct, Sample.tagging_keepsLength, Sample.tagging_floats,
    ⟨_, hrun, raw, dek, m, hraw, hheld, k, g', ho, hsame _ _ _ _ ho⟩, _, hfailed,
    hkept (fun hlost => ?_) _ rfl (by decide)⟩
  obtain ⟨-, -, -, -, -, -, -, h1, -, -, -, -, -, -, hloses⟩ := hlost.writes
  exact Sample.faulty_steady 0 _ hloses

/-- Where `Path.exists` ignores an error and the first sync of the directory fails, `migrate_container` raises
`StorageFailure`, and the file is gone. -/
theorem migration_loses_file :
    (migrateContainer Sample.checked (Sample.faulty 0 .ignored) (str "w") Sample.password 5 Sample.oldHost).1 =
      .error storageFailure ∧
    (Sample.oldHost.dataAt (str "w")).isSome = true ∧
    (migrateContainer Sample.checked (Sample.faulty 0 .ignored) (str "w") Sample.password 5 Sample.oldHost).2.dataAt
      (str "w") = none := by
  decide +kernel

end DecentWallet
