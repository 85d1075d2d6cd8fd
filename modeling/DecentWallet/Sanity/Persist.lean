import DecentWallet.Sanity.Container
import DecentWallet.Sanity.Secrets
import DecentWallet.Sanity.Session

/-! Building a container and persisting it: what the wallet stores for its secret material, and what the
session and the file hold after a write that succeeded, failed, or ended in an unknown outcome. -/

namespace DecentWallet

open Raised Prog

variable {σ : Type} {P : Platform} {C : Crypto} {M : Machine σ} {i : ℕ}

/-! ### What a container stores -/

/-- A container with boxes of the right form whose payload installs as `m` under the data key. -/
structure Container.Stores (C : Crypto) (c : Container) (dek : Bytes) (m : SecretMaterial) : Prop where
  wrap : c.wrap.Ok
  payload : c.payload.Ok
  content : ∃ stored, decodePayload C c dek currentFormatVersion = .ok stored ∧ installSecretMaterial C stored = .ok m

theorem Container.Stores.ok {c : Container} {dek : Bytes} {m : SecretMaterial} (h : c.Stores C dek m) : m.Ok C := by
  obtain ⟨stored, -, hm⟩ := h.content
  exact SecretMaterial.ok_of_install hm

/-- An unlocked session and the container it works on. -/
structure Session.Holds (C : Crypto) (s : Session) (c : Container) (dek : Bytes) : Prop where
  envelope : s.envelope = some c
  key : s.dek = some dek
  salt : ∃ salt, b64Decode c.kdf.salt (some saltLength) = .ok salt
  stores : c.Stores C dek s.material

theorem Session.Holds.of_core {s s' : Session} {c : Container} {dek : Bytes} (h : s.Holds C c dek)
    (hc : SameCore s s') : s'.Holds C c dek where
  envelope := hc.envelope.trans h.envelope
  key := hc.dek.trans h.key
  salt := h.salt
  stores := by
    have : s'.material = s.material := by simp [Session.material, hc.payload, hc.seed, hc.pendingSeed]
    rw [this]
    exact h.stores

/-- `_build_envelope` keeps the wrapped key and the salt, under a header of the wallet's own. -/
structure Container.Reseals (c c' : Container) : Prop where
  header : ∃ salt, b64Decode c.kdf.salt (some saltLength) = .ok salt ∧ c'.Written salt
  wrap : c'.wrap = c.wrap

/-- The container `_build_envelope` makes for the material `m`. -/
structure Resealed (C : Crypto) (c : Container) (dek : Bytes) (c' : Container) (m : SecretMaterial) : Prop where
  reseals : c.Reseals c'
  stores : c'.Stores C dek m
  boxes : Boxes C dek m.stored c'.payload

theorem b64Decode_length {s : Str} {n : ℕ} {b : Bytes} (h : b64Decode s (some n) = .ok b) : b.length = n := by
  simp only [b64Decode, bind_eq_ok, reject_eq_ok, pure_eq_ok] at h
  obtain ⟨d, -, _, hlen, rfl⟩ := h
  by_contra hne
  exact hlen ⟨n, rfl, hne⟩

/-! ### Building -/

theorem makePayload_ends (h : Host σ) (dek : Bytes) (p : Payload) :
    Ends (makePayload C M dek p) h (fun box h' => Ready i h h' ∧ Boxes C dek p box) (Stopped i h) := by
  unfold makePayload
  refine Ends.bind (Q := fun encoded h1 => h = h1 ∧ encodePayload C p = .ok encoded) (.lift (fun _ he => ⟨rfl, he⟩)
    fun e he => .refl h (encodePayload_fails (by decide) (by decide) p e he)) ?_
  rintro encoded _ ⟨rfl, hencoded⟩
  refine Ends.bind_run rfl ?_
  have hn := (M.tokenBytes nonceLength h.world.state).1.2
  exact .lift (fun box hbox => ⟨ready_setState h _, encoded, _, hn, hencoded, hbox⟩)
    fun e he => (ready_setState h _).stopped (.refl _ (sealPayload_fails (by decide) (by decide) _ _ _ e he))

theorem buildEnvelope_ends (hC : C.Correct) {h : Host σ} {c : Container} {dek : Bytes} {updated : Payload}
    {o : Overrides} (hs : (h.sessions i).Holds C c dek)
    (hok : SecretMaterial.Ok C ⟨updated, o.seed (h.sessions i), o.pending (h.sessions i)⟩)
    (hkey : o.activeSeed = none → (h.sessions i).seed ≠ none →
      updated.get "public_key" = (h.sessions i).payload.get "public_key")
    (hpop : o.includePending = false → updated.has pendingPublicKeyKey = false) :
    Ends (buildEnvelope C M i updated o) h
      (fun c' h' => Ready i h h' ∧ Resealed C c dek c' ⟨updated, o.seed (h.sessions i), o.pending (h.sessions i)⟩)
      (Stopped i h) := by
  obtain ⟨salt, hsalt⟩ := hs.salt
  unfold buildEnvelope
  refine Ends.bind_run rfl ?_
  rw [hs.key, hs.envelope]
  refine Ends.bind_run rfl (Ends.bind_run rfl ?_)
  rw [hsalt, payloadForStorage_eq hok hkey hpop]
  refine Ends.bind_run rfl (Ends.bind_run rfl ?_)
  refine (makePayload_ends h dek _).bind fun box h' hq => ?_
  obtain ⟨hready, hboxes⟩ := hq
  refine .pure ⟨hready, ⟨⟨salt, hsalt, ?_⟩, rfl⟩, ?_, hboxes⟩
  · exact ⟨rfl, rfl, b64Decode_length hsalt, hs.stores.wrap, hboxes.ok hC⟩
  · exact ⟨hs.stores.wrap, hboxes.ok hC, _, hboxes.decode hC, SecretMaterial.install_stored hok⟩

/-! ### Persisting -/

/-- The outcome of the write is unknown: the session is locked, and the file holds what it held or one of
the containers `N`, or is gone. -/
structure Lost (i : ℕ) (h h' : Host σ) (N : Container → Prop) : Prop extends Beside i h h' where
  latches : h'.world.latches = h.world.latches
  consumed : h'.world.consumed = h.world.consumed
  locked : (h'.sessions i).Locked
  silent : h.Tracked → h'.Silent i
  file : h'.dataAt (h.sessions i).path = h.dataAt (h.sessions i).path ∨ h'.dataAt (h.sessions i).path = none ∨
    ∃ c data, N c ∧ serialize c = .ok data ∧ h'.dataAt (h.sessions i).path = some data

/-- The write took the file for missing and left none: the session holds what it held. -/
structure Gone (M : Machine σ) (i : ℕ) (h h' : Host σ) : Prop extends Beside i h h' where
  latches : h'.world.latches = h.world.latches
  consumed : h'.world.consumed = h.world.consumed
  same : SameCore (h.sessions i) (h'.sessions i)
  file : h'.dataAt (h.sessions i).path = none
  loses : ∃ s, M.Loses s

/-- What an operation may leave that raised. -/
inductive Refused (M : Machine σ) (i : ℕ) (h : Host σ) (N : Container → Prop) : Raised → Host σ → Prop where
  | stopped {e : Raised} {h' : Host σ} : Stopped i h e h' → Refused M i h N e h'
  | unknown {h' : Host σ} : Lost i h h' N → Refused M i h N storageOutcomeUnknown h'
  | gone {h' : Host σ} : Gone M i h h' → Refused M i h N storageFailure h'

/-- The file holds `c`, and so does the session, with the material `m`. -/
structure Saved (i : ℕ) (h h' : Host σ) (c : Container) (m : SecretMaterial) : Prop
    extends Beside i h h' where
  file : ∃ data, serialize c = .ok data ∧ h'.dataAt (h.sessions i).path = some data
  envelope : (h'.sessions i).envelope = some c
  key : (h'.sessions i).dek = (h.sessions i).dek
  material : (h'.sessions i).material = m

theorem Ready.refused {h0 h h' : Host σ} {N : Container → Prop} {e : Raised} (h0h : Ready i h0 h)
    (hr : Refused M i h N e h') : Refused M i h0 N e h' := by
  cases hr with
  | stopped hs => exact .stopped (h0h.stopped hs)
  | unknown hl =>
    refine .unknown ⟨h0h.toBeside.trans hl.toBeside, hl.latches.trans h0h.latches, hl.consumed.trans h0h.consumed,
      hl.locked, fun ht => hl.silent (h0h.tracked ht), ?_⟩
    have hfile := hl.file
    rwa [h0h.path, h0h.file] at hfile
  | gone hg =>
    refine .gone ⟨h0h.toBeside.trans hg.toBeside, hg.latches.trans h0h.latches, hg.consumed.trans h0h.consumed,
      h0h.same.trans hg.same, ?_, hg.loses⟩
    rw [← h0h.path]
    exact hg.file

theorem Ready.saved {h0 h h' : Host σ} {c : Container} {m : SecretMaterial} (h0h : Ready i h0 h)
    (hs : Saved i h h' c m) : Saved i h0 h' c m where
  toBeside := h0h.toBeside.trans hs.toBeside
  file := by
    have := hs.file
    rwa [h0h.path] at this
  envelope := hs.envelope
  key := hs.key.trans h0h.same.dek
  material := hs.material

theorem Saved.ready {h h1 h' : Host σ} {c : Container} {m : SecretMaterial} (hs : Saved i h h1 c m)
    (h1h : Ready i h1 h') : Saved i h h' c m where
  toBeside := hs.toBeside.trans h1h.toBeside
  file := by
    obtain ⟨data, hdata, hfile⟩ := hs.file
    refine ⟨data, hdata, ?_⟩
    rw [← hfile, ← hs.path]
    exact h1h.file
  envelope := h1h.same.envelope.trans hs.envelope
  key := h1h.same.dek.trans hs.key
  material := by
    rw [← hs.material]
    simp [Session.material, h1h.same.payload, h1h.same.seed, h1h.same.pendingSeed]

/-- What `_persist_envelope` leaves that returned. -/
structure Persisted (i : ℕ) (h h' : Host σ) (c : Container) : Prop extends Beside i h h' where
  latches : h'.world.latches = h.world.latches
  consumed : h'.world.consumed = h.world.consumed
  session : h'.sessions i = h.sessions i
  file : ∃ data, serialize c = .ok data ∧ h'.dataAt (h.sessions i).path = some data

theorem OnlyFile.beside {h h' : Host σ} (ho : OnlyFile (h.sessions i).path h h') : Beside i h h' where
  files := fun p hp => by rw [Host.dataAt, ho.files p hp, Host.dataAt]
  log := ho.log
  fresh := ho.fresh.ge
  nextSession := ho.nextSession
  others := fun j _ => by rw [ho.sessions]
  path := by rw [ho.sessions]
  tracked := fun ht id s hs ha => by
    rw [ho.signers] at hs
    rw [ho.sessions]
    exact ht id s hs ha
  signers := fun id s hs _ => by rwa [← ho.signers]

theorem persistEnvelope_ends (h : Host σ) (c : Container) {N : Container → Prop} (hN : N c) :
    Ends (persistEnvelope M i c) h (fun _ h' => Persisted i h h' c) (Refused M i h N) := by
  unfold persistEnvelope
  refine Ends.bind_run rfl ?_
  refine Ends.bind (Q := fun data h1 => h = h1 ∧ serialize c = .ok data) (.lift (fun _ hd => ⟨rfl, hd⟩)
    fun e he => .stopped (.refl h (canonicalJson_fails (by decide) _ e he))) ?_
  rintro data _ ⟨rfl, hdata⟩
  rcases hw : atomicWrite M (h.sessions i).path data true h with ⟨r, h1⟩
  have hend := atomicWrite_replace hw
  have honly : OnlyFile (h.sessions i).path h h1 := (atomicWrite_only data true).of_run hw
  have hbeside : Beside i h h1 := honly.beside
  have hsame : SameCore (h.sessions i) (h1.sessions i) := by
    rw [honly.sessions]
    exact .refl _
  refine Ends.bind_run (Prog.attempt_ok_iff.2 hw) ?_
  cases hend with
  | written hafter =>
    exact .pure ⟨hbeside, honly.latches, honly.consumed, by rw [honly.sessions], data, hdata, hafter⟩
  | unknown hafter =>
    refine Ends.bind_run (lock_run h1) (.raise (.unknown ⟨hbeside.trans (beside_lock h1), honly.latches, honly.consumed,
      ?_, fun ht => silent_invalidate (hbeside.tracked ht) _, ?_⟩))
    · simpa [Host.setSession] using locked_locked _
    · rcases hafter with hbefore | hnew | hnone
      · exact .inl hbefore
      · exact .inr (.inr ⟨c, data, hN, hdata, hnew⟩)
      · exact .inr (.inl hnone)
  | failed he hafter =>
    have hcalm : Calm i h h1 := ⟨hbeside, hafter, honly.latches, honly.consumed⟩
    rcases he with rfl | rfl
    · exact .raise (.stopped ⟨hcalm, by decide, .inl hsame⟩)
    · exact .raise (.stopped ⟨hcalm, by decide, .inl hsame⟩)
  | lost hloses hnone =>
    exact .raise (.gone ⟨hbeside, honly.latches, honly.consumed, hsame, hnone, _, hloses⟩)

/-- What an operation makes of its session once the container `c` is persisted. -/
structure Installs (s0 : Session) (f : Session → Session) (c : Container) (m : SecretMaterial) : Prop where
  path : ∀ s, (f s).path = s.path
  key : ∀ s, (f s).dek = s.dek
  envelope : ∀ s, (f s).envelope = some c
  material : ∀ s, SameCore s0 s → (f s).material = m
  capabilities : ∀ s, (f s).capabilities = s.capabilities

theorem saved_install {h0 h h1 : Host σ} {c : Container} {m : SecretMaterial} {f : Session → Session}
    (h0h : Ready i h0 h) (hp : Persisted i h h1 c) (hf : Installs (h0.sessions i) f c m) :
    Saved i h0 (h1.setSession i (f (h1.sessions i))) c m := by
  have hbeside : Beside i h1 (h1.setSession i (f (h1.sessions i))) :=
    { files := fun _ _ => rfl
      log := rfl
      fresh := le_rfl
      nextSession := rfl
      others := fun j hj => Function.update_of_ne hj _ _
      path := by simp [Host.setSession, hf.path]
      tracked := fun ht id s hs ha => by
        have := ht id s hs ha
        by_cases hw : s.wallet = i
        · rw [hw] at this
          simpa [Host.setSession, hw, hf.capabilities] using this
        · simpa [Host.setSession, hw] using this
      signers := fun _ _ hs _ => hs }
  refine h0h.saved ⟨hp.toBeside.trans hbeside, hp.file, ?_, ?_, ?_⟩
  · simp [Host.setSession, hf.envelope]
  · simp [Host.setSession, hf.key, hp.session]
  · simpa [Host.setSession] using hf.material _ (by rw [hp.session]; exact h0h.same)

end DecentWallet
