import DecentWallet.Sanity.Latches
import DecentWallet.Sanity.Persist

/-! What each operation of a wallet does to its session and to its file: it is refused and nothing
changes, it loses the file, it ends in an unknown outcome and the session is locked, or the new material is in the file
and in the session. -/

namespace DecentWallet

open Raised Prog

variable {σ : Type} {P : Platform} {C : Crypto} {M : Machine σ} {i : ℕ}

/-! ### Steps of an operation -/

/-- The adapter's side is as it was. -/
structure SameSide (h h' : Host σ) : Prop where
  latches : h'.world.latches = h.world.latches
  consumed : h'.world.consumed = h.world.consumed

theorem SameSide.trans {a b c : Host σ} (h1 : SameSide a b) (h2 : SameSide b c) : SameSide a c :=
  ⟨h2.latches.trans h1.latches, h2.consumed.trans h1.consumed⟩

theorem Ready.side {h h' : Host σ} (hr : Ready i h h') : SameSide h h' := ⟨hr.latches, hr.consumed⟩

/-- The material of some container the operation may have left. -/
def Resealing (C : Crypto) (c : Container) (dek : Bytes) (T : SecretMaterial → Prop) (c' : Container) : Prop :=
  ∃ m, T m ∧ Resealed C c dek c' m

section

variable {h0 h : Host σ} {c : Container} {dek : Bytes} {α β : Type} {N : Container → Prop} {S : β → Host σ → Prop}

/-- Checks, then the rest of the operation that began in `h0`. -/
theorem checks_then {x : Proc σ α} {f : α → Proc σ β} (hx : Checks i x) (h0h : Ready i h0 h)
    (hf : ∀ a h', x h = (.ok a, h') → Ready i h0 h' → Ends (f a) h' S (Refused M i h0 N)) :
    Ends (x >>= f) h S (Refused M i h0 N) := by
  refine Ends.bind (Q := fun a h' => x h = (.ok a, h') ∧ Ready i h0 h') ⟨?_, ?_⟩ fun a h' hq => hf a h' hq.1 hq.2
  · exact fun a h' hr => ⟨hr, h0h.trans ((hx h).ok hr)⟩
  · exact fun e h' hr => h0h.refused (.stopped ((hx h).error hr))

theorem lift_then {x : Except Raised α} {f : α → Proc σ β} (hx : Fails Known x) (h0h : Ready i h0 h)
    (hf : ∀ a, x = .ok a → Ends (f a) h S (Refused M i h0 N)) : Ends (Prog.lift x >>= f) h S (Refused M i h0 N) :=
  checks_then (Checks.lift hx) h0h fun a h' hr _ => by
    obtain ⟨ha, rfl⟩ := lift_ok_iff.1 hr
    exact hf a ha

theorem reject_then {p : Prop} [Decidable p] {e : Raised} {f : Unit → Proc σ β} (he : e.Known) (h0h : Ready i h0 h)
    (hf : ¬p → Ends (f ()) h S (Refused M i h0 N)) : Ends (Prog.reject p e >>= f) h S (Refused M i h0 N) :=
  lift_then (Fails.reject he p) h0h fun _ hp => hf (reject_eq_ok.1 hp)

/-- `_build_envelope`, then the rest. -/
theorem build_then (hC : C.Correct) {updated : Payload} {o : Overrides} {m : SecretMaterial}
    {f : Container → Proc σ β} (hs : (h0.sessions i).Holds C c dek) (h0h : Ready i h0 h)
    (hm : m = ⟨updated, o.seed (h0.sessions i), o.pending (h0.sessions i)⟩) (hok : m.Ok C)
    (hkey : o.activeSeed = none → (h0.sessions i).seed ≠ none →
      updated.get "public_key" = (h0.sessions i).payload.get "public_key")
    (hpop : o.includePending = false → updated.has pendingPublicKeyKey = false)
    (hf : ∀ c' h', Resealed C c dek c' m → Ready i h0 h' → (h.Silent i → h'.Silent i) →
      Ends (f c') h' S (Refused M i h0 N)) :
    Ends (buildEnvelope C M i updated o >>= f) h S (Refused M i h0 N) := by
  have hseed : o.seed (h.sessions i) = o.seed (h0.sessions i) := by simp [Overrides.seed, h0h.same.seed]
  have hpending : o.pending (h.sessions i) = o.pending (h0.sessions i) := by
    simp [Overrides.pending, h0h.same.pendingSeed]
  rw [← hseed, ← hpending] at hm
  subst hm
  refine ((buildEnvelope_ends hC (hs.of_core h0h.same) hok ?_ hpop).mono (fun _ _ hq => hq) fun e h' he =>
    h0h.refused (.stopped he)).bind fun c' h' hq => hf c' h' hq.2 (h0h.trans hq.1) (hq.1.silent i)
  rw [h0h.same.seed, h0h.same.payload]
  exact hkey

/-- `_persist_envelope` and the change of the session, then the rest. -/
theorem persist_then {c' : Container} {m : SecretMaterial} {g : Session → Session} {f : Unit → Proc σ β} (hN : N c')
    (h0h : Ready i h0 h) (hg : Installs (h0.sessions i) g c' m)
    (hf : ∀ h', Saved i h0 h' c' m → SameSide h0 h' → (h.Silent i → h'.Silent i) →
    Ends (f ()) h' S (Refused M i h0 N)) :
    Ends (persistEnvelope M i c' >>= fun _ => modifySession i g >>= f) h S (Refused M i h0 N) := by
  refine ((persistEnvelope_ends h c' hN).mono (fun _ _ hq => hq) fun e h' he => h0h.refused he).bind fun _ h1 hp => ?_
  refine Ends.bind_run rfl (hf _ (saved_install h0h hp hg) ?_ fun hs => ?_)
  · exact h0h.side.trans ⟨hp.latches, hp.consumed⟩
  · exact fun id s hid ha => hp.toBeside.silent i hs id s hid ha

end

/-! ### Content and password -/

section

variable {h : Host σ} {c : Container} {dek : Bytes}

/-- What `update_payload` stores. -/
def Updates (s : Session) (payload : Payload) (m : SecretMaterial) : Prop :=
  hasSigningField payload = false ∧ ∃ updated, updatedPayload s payload = .ok updated ∧
    m = ⟨updated, s.seed, s.pendingSeed⟩

theorem copy_fails (p q : Payload) (k : String) : Fails Known (p.copy q k) := by
  unfold Payload.copy
  split
  · exact Fails.error (by decide)
  · exact Fails.ok _

theorem copyIf_fails (p q : Payload) (b : Bool) (k : String) : Fails Known (p.copyIf b q k) :=
  Fails.ite (copy_fails p q k) (Fails.ok _)

theorem updatedPayload_fails (s : Session) (p : Payload) : Fails Known (updatedPayload s p) :=
  (copyIf_fails _ _ _ _).bind fun _ => (copyIf_fails _ _ _ _).bind fun _ => copyIf_fails _ _ _ _

theorem updatePayload_ends (hC : C.Correct) (hs : (h.sessions i).Holds C c dek) (payload : Payload) :
    Ends (updatePayload C M i payload) h
      (fun _ h' => ∃ c' m, Updates (h.sessions i) payload m ∧ Resealed C c dek c' m ∧ Saved i h h' c' m ∧ SameSide h h')
      (Refused M i h (Resealing C c dek (Updates (h.sessions i) payload))) := by
  unfold updatePayload
  refine checks_then touch_checks (Ready.refl h) fun _ h1 _ hr1 => ?_
  refine reject_then (by decide) hr1 fun hfields => Ends.bind_run rfl ?_
  have hfields : hasSigningField payload = false := by simpa using hfields
  have hsame : updatedPayload (h1.sessions i) payload = updatedPayload (h.sessions i) payload := by
    simp only [updatedPayload, hr1.same.payload, hr1.same.seed, hr1.same.pendingSeed]
  rw [hsame]
  refine lift_then (updatedPayload_fails _ _) hr1 fun updated hupdated => ?_
  obtain ⟨hkeep, hseed, hpseed⟩ := updatedPayload_keeps hs.stores.ok hfields hupdated
  have hturn : Updates (h.sessions i) payload ⟨updated, (h.sessions i).seed, (h.sessions i).pendingSeed⟩ :=
    ⟨hfields, updated, hupdated, rfl⟩
  refine build_then hC hs hr1 (by simp [Overrides.seed, Overrides.pending])
    (SecretMaterial.Ok.update hs.stores.ok hkeep hseed hpseed) (fun _ _ => hkeep.publicKey) (by simp)
    fun c' h4 hresealed hr4 _ => ?_
  refine persist_then ⟨_, hturn, hresealed⟩ hr4
    (m := ⟨updated, (h.sessions i).seed, (h.sessions i).pendingSeed⟩) ?_ fun h5 hsaved hside _ => ?_
  · exact ⟨fun _ => rfl, fun _ => rfl, fun _ => rfl, fun s hcore => by
      simp [Session.material, hcore.seed, hcore.pendingSeed], fun _ => rfl⟩
  · exact .modify ⟨c', _, hturn, hresealed, hsaved.ready (ready_invalidate h5), hside.trans ⟨rfl, rfl⟩⟩

/-- What `change_password` stores: the same payload box, and the key wrapped under the new password. -/
structure Rewraps (C : Crypto) (c : Container) (dek : Bytes) (password : Str) (c' : Container) : Prop where
  written : ∃ salt, c'.Written salt
  payload : c'.payload = c.payload
  unwraps : dek.length = keyLength → unwrapDek C c' password currentFormatVersion = .ok dek

theorem decodePayload_congr {c c' : Container} (h : c'.payload = c.payload) (dek : Bytes) (v : ℤ) :
    decodePayload C c' dek v = decodePayload C c dek v := by
  unfold decodePayload
  rw [h]

theorem Rewraps.stores {c' : Container} {password : Str} {m : SecretMaterial} (hr : Rewraps C c dek password c')
    (hs : c.Stores C dek m) : c'.Stores C dek m := by
  obtain ⟨salt, hw⟩ := hr.written
  obtain ⟨stored, hdecode, hinstall⟩ := hs.content
  exact ⟨hw.wrap, hw.payload, stored, by rw [decodePayload_congr hr.payload, hdecode], hinstall⟩

theorem validatePassword_fails (password : Str) (confirmation : Option Str) :
    Fails Known (validatePassword password confirmation) :=
  (Fails.reject (by decide) _).bind fun _ => Fails.reject (by decide) _

theorem changePassword_ends (hC : C.Correct) (hs : (h.sessions i).Holds C c dek) (password confirmation : Str) :
    Ends (changePassword C M i password confirmation) h
      (fun _ h' => validatePassword password (some confirmation) = .ok () ∧
        ∃ c', Rewraps C c dek password c' ∧ Saved i h h' c' (h.sessions i).material ∧ SameSide h h')
      (Refused M i h (Rewraps C c dek password)) := by
  unfold changePassword
  refine checks_then touch_checks (Ready.refl h) fun _ h1 _ hr1 => ?_
  refine lift_then (validatePassword_fails _ _) hr1 fun _ hvalid => ?_
  refine checks_then (ask_checks _) hr1 fun salt h3 _ hr3 => ?_
  refine lift_then (Fails.orRaise (by decide) _) hr3 fun kek hkek => Ends.bind_run rfl ?_
  rw [hr3.same.dek, hs.key, hr3.same.envelope, hs.envelope]
  refine Ends.bind_run rfl (checks_then (ask_checks _) hr3 fun nonce h5 _ hr5 => ?_)
  refine lift_then (wrapDek_fails (by decide) (by decide) _ _ _ _) hr5 fun wrap hwrap => Ends.bind_run rfl ?_
  have hrewraps : Rewraps C c dek password ⟨currentFormatVersion, kdfHeader salt.1, wrap, c.payload⟩ :=
    { written := ⟨salt.1, rfl, rfl, salt.2, wrapDek_ok hC hwrap nonce.2, hs.stores.payload⟩
      payload := rfl
      unwraps := fun hlen => unwrapDek_wrapDek hC (b64Decode_encode_length salt.2) hkek hwrap hlen nonce.2 }
  have hinstalls : Installs (h.sessions i)
      (fun s => { s with envelope := some ⟨currentFormatVersion, kdfHeader salt.1, wrap, c.payload⟩ })
      ⟨currentFormatVersion, kdfHeader salt.1, wrap, c.payload⟩ (h.sessions i).material :=
    ⟨fun _ => rfl, fun _ => rfl, fun _ => rfl, fun s hcore => by
      simp [Session.material, hcore.payload, hcore.seed, hcore.pendingSeed], fun _ => rfl⟩
  refine ((persistEnvelope_ends h5 _ hrewraps).mono (fun _ _ hq => hq) fun e h' he => hr5.refused he).bind
    fun _ h7 hp => .modify ⟨hvalid, _, hrewraps, saved_install hr5 hp hinstalls, ?_⟩
  exact hr5.side.trans ⟨hp.latches, hp.consumed⟩

/-! ### Staging -/

/-- What `prepare` stores. -/
def Stages (s : Session) (key : Bytes) (m : SecretMaterial) : Prop :=
  s.payload.has intentKey = false ∧ s.pendingSeed = none ∧
    ∃ seed, m = ⟨s.payload.setBytes pendingPublicKeyKey key, s.seed, some seed⟩

theorem stageSuccessor_ok {s : Session} {h h' : Host σ} {staged : Bytes × Bytes}
    (hr : stageSuccessor C M s h = (.ok staged, h')) : ∃ seed active, s.seed = some seed ∧
      s.payload.get "public_key" = .bytes active ∧ staged.1.length = keyLength ∧
      C.publicKey staged.1 = some staged.2 ∧ staged.2 ≠ active := by
  simp only [stageSuccessor, generateSeed, bind_ok_iff, lift_ok_iff, orRaise_eq_ok, reject_ok_iff, pure_ok_iff,
    asBytes_eq_some] at hr
  obtain ⟨seed, _, ⟨hseed, rfl⟩, active, _, ⟨hactive, rfl⟩, new, _, ⟨o, _, hask, hnew⟩, key, _, ⟨hkey, rfl⟩, _, _,
    ⟨hne, rfl⟩, rfl, -⟩ := hr
  refine ⟨seed, active, hseed, hactive, ?_, hkey, hne⟩
  cases o with
  | none => simp at hnew
  | some t =>
    obtain ⟨rfl, -⟩ := pure_ok_iff.1 hnew
    exact t.2

theorem not_latched_of_ensure {h h' : Host σ} {u : Unit}
    (hr : ensureRotationDispatchNotLatched i h = (.ok u, h')) : (h.sessions i).payload.has intentKey = false := by
  simp only [ensureRotationDispatchNotLatched, bind_ok_iff, reject_ok_iff] at hr
  obtain ⟨s, _, hs, hno, -⟩ := hr
  cases hs
  simpa using hno

theorem prepare_ends (hC : C.Correct) (hs : (h.sessions i).Holds C c dek) :
    Ends (prepareSigningKeyRotation C M i) h
      (fun key h' => (Ready i h h' ∧ (h.sessions i).pendingSeed ≠ none) ∨
        ∃ c' m, Stages (h.sessions i) key m ∧ Resealed C c dek c' m ∧ Saved i h h' c' m ∧ SameSide h h')
      (Refused M i h (Resealing C c dek fun m => ∃ key, Stages (h.sessions i) key m)) := by
  unfold prepareSigningKeyRotation
  refine checks_then touch_checks (Ready.refl h) fun _ h1 _ hr1 => ?_
  refine checks_then ensure_checks hr1 fun _ h2 hensure hr2 => Ends.bind_run rfl ?_
  have hnone := not_latched_of_ensure hensure
  rw [hr1.same.payload] at hnone
  refine .ite (fun hpending => ?_) fun hpending => ?_
  · refine checks_then pendingSigningPublicKey_checks hr2 fun o h3 _ hr3 => ?_
    rw [hr2.same.pendingSeed] at hpending
    exact .lift (fun _ _ => .inl ⟨hr3, by simpa [Option.isSome_iff_ne_none] using hpending⟩)
      fun e he => hr3.refused (.stopped (.refl _ (Fails.orRaise (by decide) _ e he)))
  · rw [hr2.same.pendingSeed] at hpending
    have hpending : (h.sessions i).pendingSeed = none := by simpa using hpending
    refine checks_then (stageSuccessor_checks _) hr2 fun staged h3 hstaged hr3 => ?_
    obtain ⟨seed, active, hseed, hactive, hlen, hkey, hne⟩ := stageSuccessor_ok hstaged
    rw [hr2.same.seed] at hseed
    rw [hr2.same.payload] at hactive ⊢
    have hturn : Stages (h.sessions i) staged.2
        ⟨(h.sessions i).payload.setBytes pendingPublicKeyKey staged.2, (h.sessions i).seed, some staged.1⟩ :=
      ⟨hnone, hpending, staged.1, rfl⟩
    have hok := hs.stores.ok
    rw [Session.material, hpending] at hok
    refine build_then hC hs hr3 (by simp [Overrides.seed, Overrides.pending])
      (hok.stage hseed hactive hnone ⟨rfl, hlen, hC.publicKey_length hkey, hkey⟩ hne)
      (fun _ _ => by simp [pendingPublicKeyKey]) (by simp) fun c' h4 hresealed hr4 _ => ?_
    refine persist_then ⟨_, ⟨_, hturn⟩, hresealed⟩ hr4
      (m := ⟨(h.sessions i).payload.setBytes pendingPublicKeyKey staged.2, (h.sessions i).seed, some staged.1⟩) ?_
      fun h5 hsaved hside _ => ?_
    · exact ⟨fun _ => rfl, fun _ => rfl, fun _ => rfl, fun s hcore => by simp [Session.material, hcore.seed],
        fun _ => rfl⟩
    · exact Ends.bind_run rfl (.pure (.inr ⟨c', _, hturn, hresealed, hsaved.ready (ready_invalidate h5),
        hside.trans ⟨rfl, rfl⟩⟩))

/-- What `cancel` stores. -/
def Unstages (s : Session) (m : SecretMaterial) : Prop :=
  s.payload.has intentKey = false ∧ s.pendingSeed ≠ none ∧ m = ⟨s.payload.pop pendingPublicKeyKey, s.seed, none⟩

theorem cancel_ends (hC : C.Correct) (hs : (h.sessions i).Holds C c dek) :
    Ends (cancelSigningKeyRotation C M i) h
      (fun _ h' => (Ready i h h' ∧ (h.sessions i).pendingSeed = none) ∨
        ∃ c' m, Unstages (h.sessions i) m ∧ Resealed C c dek c' m ∧ Saved i h h' c' m ∧ SameSide h h')
      (Refused M i h (Resealing C c dek (Unstages (h.sessions i)))) := by
  unfold cancelSigningKeyRotation
  refine checks_then touch_checks (Ready.refl h) fun _ h1 _ hr1 => ?_
  refine checks_then ensure_checks hr1 fun _ h2 hensure hr2 => Ends.bind_run rfl ?_
  have hnone := not_latched_of_ensure hensure
  rw [hr1.same.payload] at hnone
  rw [hr2.same.pendingSeed, hr2.same.payload]
  refine .ite (fun hpending => ?_) fun hpending => ?_
  · exact .reject (fun _ => .inl ⟨hr2, by simpa using hpending⟩)
      fun _ => hr2.refused (.stopped (.refl _ (by decide)))
  · have hpending : (h.sessions i).pendingSeed ≠ none := by simpa using hpending
    have hturn : Unstages (h.sessions i) ⟨(h.sessions i).payload.pop pendingPublicKeyKey, (h.sessions i).seed, none⟩ :=
      ⟨hnone, hpending, rfl⟩
    refine build_then hC hs hr2 (by simp [Overrides.seed, Overrides.pending])
      (SecretMaterial.Ok.unstage hs.stores.ok hnone (SecretMaterial.Ok.seed_ne_none hs.stores.ok hpending))
      (fun _ _ => by simp [pendingPublicKeyKey]) (by simp) fun c' h4 hresealed hr4 _ => ?_
    refine persist_then ⟨_, hturn, hresealed⟩ hr4
      (m := ⟨(h.sessions i).payload.pop pendingPublicKeyKey, (h.sessions i).seed, none⟩) ?_ fun h5 hsaved hside _ => ?_
    · exact ⟨fun _ => rfl, fun _ => rfl, fun _ => rfl, fun s hcore => by simp [Session.material, hcore.seed],
        fun _ => rfl⟩
    · exact .modify (.inr ⟨c', _, hturn, hresealed, hsaved.ready (ready_invalidate h5), hside.trans ⟨rfl, rfl⟩⟩)

/-! ### The latch -/

/-- The intent a session is latched on. -/
structure LatchedOn (s : Session) (intent : RotationDispatchIntent) : Prop where
  has : s.payload.has intentKey = true
  value : RotationDispatchIntent.fromPayload (s.payload.get intentKey) = .ok intent

/-- What `latch` stores. -/
structure LatchesOn (s : Session) (intent : RotationDispatchIntent) (m : SecretMaterial) : Prop where
  free : s.payload.has intentKey = false
  active : s.payload.get "public_key" = .bytes intent.predecessorOwnerPublicKey
  pending : s.payload.get pendingPublicKeyKey = .bytes intent.successorOwnerPublicKey
  material : m = ⟨s.payload.setIntent intent, s.seed, s.pendingSeed⟩

theorem walletPublicKey_ok {h h' : Host σ} {key : Bytes} (hr : walletPublicKey C M i h = (.ok key, h')) :
    (h.sessions i).payload.get "public_key" = .bytes key := by
  simp only [walletPublicKey, bind_ok_iff, lift_ok_iff] at hr
  obtain ⟨_, h1, htouch, s, h2, hs, hkey, -⟩ := hr
  have hcore := ((touch_ends h).ok htouch).1.same
  cases hs
  obtain ⟨seed, -, hpair⟩ := publicKeyForSecret_eq_ok.1 hkey
  rw [← hcore.payload, hpair.value]

theorem pendingSigningPublicKey_ok {h h' : Host σ} {key : Bytes}
    (hr : pendingSigningPublicKey C M i h = (.ok (some key), h')) :
    (h.sessions i).payload.get pendingPublicKeyKey = .bytes key := by
  simp only [pendingSigningPublicKey, bind_ok_iff, lift_ok_iff] at hr
  obtain ⟨_, h1, htouch, s, h2, hs, hkey, -⟩ := hr
  have hcore := ((touch_ends h).ok htouch).1.same
  cases hs
  unfold pendingKeyOf at hkey
  split_ifs at hkey with hnone
  · simp only [bind_eq_ok, reject_eq_ok, pure_eq_ok] at hkey
    obtain ⟨_, -, hkey⟩ := hkey
    cases hkey
  · cases hp : publicKeyForSecret C (h1.sessions i).pendingSeed ((h1.sessions i).payload.get pendingPublicKeyKey) with
    | error e => simp [hp, Except.map] at hkey
    | ok k =>
      rw [hp] at hkey
      obtain rfl : k = key := by simpa [Except.map] using hkey
      obtain ⟨seed, -, hpair⟩ := publicKeyForSecret_eq_ok.1 hp
      rw [← hcore.payload, hpair.value]

theorem latchKeys_ok {h h' : Host σ} {keys : Bytes × Bytes} (hr : latchKeys C M i h = (.ok keys, h')) :
    (h.sessions i).payload.get "public_key" = .bytes keys.1 ∧
      (h.sessions i).payload.get pendingPublicKeyKey = .bytes keys.2 := by
  simp only [latchKeys, bind_ok_iff, lift_ok_iff, orRaise_eq_ok, pure_ok_iff] at hr
  obtain ⟨active, h1, hactive, pending, h2, hpending, key, h3, ⟨rfl, rfl⟩, rfl, -⟩ := hr
  have hcore := (walletPublicKey_checks.ready hactive).same
  refine ⟨walletPublicKey_ok hactive, ?_⟩
  rw [← hcore.payload]
  exact pendingSigningPublicKey_ok hpending

/-- The intent of `latch` names the keys of the session. -/
theorem latchIntent_ok {b : IdentityBundle P} {pub : RotationPublication P} {h h' : Host σ}
    {intent : RotationDispatchIntent} (hr : latchIntent P C M i b pub h = (.ok intent, h')) :
    (h.sessions i).payload.get "public_key" = .bytes intent.predecessorOwnerPublicKey ∧
      (h.sessions i).payload.get pendingPublicKeyKey = .bytes intent.successorOwnerPublicKey := by
  simp only [latchIntent, bind_ok_iff, lift_ok_iff] at hr
  obtain ⟨v, _, ⟨-, rfl⟩, now, h1, hnow, _, h2, hrej, auth, _, ⟨-, rfl⟩, _, h3, hrej', _, h4, hprove, keys, h5, hkeys,
    hmake, -⟩ := hr
  obtain ⟨-, rfl⟩ := reject_ok_iff.1 hrej
  obtain ⟨-, rfl⟩ := reject_ok_iff.1 hrej'
  have hcore := ((ask_checks (i := i) _).ready hnow).same.trans ((provePending_checks _).ready hprove).same
  obtain ⟨hactive, hpending⟩ := latchKeys_ok hkeys
  have hintent : intent.toRotationBinding.predecessorOwnerPublicKey = keys.1 ∧
      intent.toRotationBinding.successorOwnerPublicKey = keys.2 := by
    unfold RotationDispatchIntent.make at hmake
    split_ifs at hmake
    cases Except.ok.inj hmake
    exact ⟨rfl, rfl⟩
  rw [hintent.1, hintent.2, ← hcore.payload]
  exact ⟨hactive, hpending⟩

/-- What `latch` leaves on the adapter's side. -/
structure Registered (h h' : Host σ) (adapter : ℕ) (intent : RotationDispatchIntent) : Prop where
  free : (h.world.latches adapter) intent.ownerName = none
  latches : h'.world.latches = Function.update h.world.latches adapter
    ((h.world.latches adapter).put intent.ownerName (some (intent.toRotationBinding, true)))
  consumed : h'.world.consumed = h.world.consumed

/-- A step on the adapter's side after the write. -/
theorem Saved.world {h h1 : Host σ} {c' : Container} {m : SecretMaterial} (hs : Saved i h h1 c' m) {w : World σ}
    (hlog : w.log = h1.world.log) (hfresh : h1.world.fresh ≤ w.fresh) : Saved i h { h1 with world := w } c' m where
  files := hs.files
  log := hlog.trans hs.log
  fresh := hs.fresh.trans hfresh
  nextSession := hs.nextSession
  others := hs.others
  path := hs.path
  tracked := hs.tracked
  signers := hs.signers
  file := hs.file
  envelope := hs.envelope
  key := hs.key
  material := hs.material

theorem latch_ends (hC : C.Correct) (hs : (h.sessions i).Holds C c dek) (b : IdentityBundle P)
    (pub : RotationPublication P) :
    Ends (latchSigningKeyRotationDispatchIntent P C M i b pub) h
      (fun permit h' => pub.binding = permit.intent.toRotationBinding ∧
      ∃ c' m, LatchesOn (h.sessions i) permit.intent m ∧ Resealed C c dek c' m ∧ Saved i h h' c' m ∧
          Registered h h' pub.adapter permit.intent ∧ (h.Tracked → h'.Silent i))
      (Refused M i h (Resealing C c dek fun m => ∃ intent, LatchesOn (h.sessions i) intent m ∧
        pub.binding = intent.toRotationBinding)) := by
  unfold latchSigningKeyRotationDispatchIntent
  refine checks_then touch_checks (Ready.refl h) fun _ h1 _ hr1 => ?_
  refine checks_then ensure_checks hr1 fun _ h2 hensure hr2 => ?_
  have hnone := not_latched_of_ensure hensure
  rw [hr1.same.payload] at hnone
  refine checks_then (latchIntent_checks b pub) hr2 fun intent h3 hintent hr3 => ?_
  obtain ⟨hactive, hpending⟩ := latchIntent_ok hintent
  rw [hr2.same.payload] at hactive hpending
  refine reject_then (by decide) hr3 fun hmatch => ?_
  have hbinding := RotationPublication.matchesIntent_iff.1 (by simpa using hmatch)
  refine checks_then (isOwnerLatched_checks _ _) hr3 fun latched h4 hlatched hr4 => ?_
  refine reject_then (by decide) hr4 fun hfree => ?_
  have hfree : (h.world.latches pub.adapter).isOwnerLatched intent.ownerName = false := by
    cases hlatched
    rw [← hr3.latches, ← hbinding]
    simpa using hfree
  refine checks_then invalidateCapabilities_checks hr4 fun _ h6 hinvalidate hr6 => Ends.bind_run rfl ?_
  have hturn : LatchesOn (h.sessions i) intent
      ⟨(h.sessions i).payload.setIntent intent, (h.sessions i).seed, (h.sessions i).pendingSeed⟩ :=
      ⟨hnone, hactive, hpending, rfl⟩
  rw [hr6.same.payload]
  refine build_then hC hs hr6 (by simp [Overrides.seed, Overrides.pending])
    (SecretMaterial.Ok.setIntent hs.stores.ok hactive hpending) (fun _ _ => by simp [Payload.setIntent, intentKey])
    (by simp) fun c' h7 hresealed hr7 hsilent7 => ?_
  refine persist_then ⟨_, ⟨intent, hturn, hbinding⟩, hresealed⟩ hr7
    (m := ⟨(h.sessions i).payload.setIntent intent, (h.sessions i).seed, (h.sessions i).pendingSeed⟩) ?_
    fun h8 hsaved hside hsilent => ?_
  · exact ⟨fun _ => rfl, fun _ => rfl, fun _ => rfl, fun s hcore => by
      simp [Session.material, hcore.seed, hcore.pendingSeed], fun _ => rfl⟩
  have hregister : net (registerLatch pub.adapter intent.toRotationBinding true) h8 = (.ok true, { h8 with
      world := h8.world.setLatches pub.adapter ((h8.world.latches pub.adapter).put intent.ownerName
        (some (intent.toRotationBinding, true))) }) := by
    rw [← hside.latches] at hfree
    simp [net, registerLatch, Latches.register_of_free hfree, Except.mapError]
  refine Ends.bind_run hregister (Ends.bind_run rfl (.pure ⟨hbinding, c', _, hturn, hresealed,
    hsaved.world rfl le_rfl, ⟨?_, ?_, hside.consumed⟩, fun ht => ?_⟩))
  · simpa [Latches.isOwnerLatched] using hfree
  · simp only [World.setLatches, hside.latches]
  · exact hsilent (hsilent7 (silent_of_invalidateCapabilities (hr4.tracked ht) hinvalidate))

/-! ### The environment of a legacy latch -/

theorem intentOf_eq_ok {p : Payload} {o : Option RotationDispatchIntent} (h : intentOf p = .ok o) :
    ∀ intent ∈ o, p.has intentKey = true ∧ RotationDispatchIntent.fromPayload (p.get intentKey) = .ok intent := by
  intro intent hi
  unfold intentOf at h
  split_ifs at h with hhas
  · refine ⟨hhas, ?_⟩
    cases hf : RotationDispatchIntent.fromPayload (p.get intentKey) with
    | error e => simp [hf, Except.map] at h
    | ok j =>
      rw [hf] at h
      cases Except.ok.inj h
      cases hi
      rfl
  · cases Except.ok.inj h
    cases hi

theorem dispatchIntent_ok {h h' : Host σ} {intent : RotationDispatchIntent}
    (hr : signingKeyRotationDispatchIntent M i h = (.ok (some intent), h')) : LatchedOn (h.sessions i) intent := by
  simp only [signingKeyRotationDispatchIntent, bind_ok_iff, lift_ok_iff] at hr
  obtain ⟨_, h1, htouch, s, h2, hs, hintent, -⟩ := hr
  cases hs
  have hcore := (touch_checks.ready htouch).same
  rw [hcore.payload] at hintent
  obtain ⟨hhas, hvalue⟩ := intentOf_eq_ok hintent intent rfl
  exact ⟨hhas, hvalue⟩

/-- What `bind_legacy_rotation_dispatch_environment` stores. -/
def Binds (s : Session) (intent bound : RotationDispatchIntent) (environment : Str) (m : SecretMaterial) : Prop :=
  LatchedOn s intent ∧ bound.toRotationBinding = { intent.toRotationBinding with environment := some environment } ∧
    m = ⟨s.payload.setIntent bound, s.seed, s.pendingSeed⟩

theorem LatchedOn.keys {s : Session} {intent : RotationDispatchIntent} (hl : LatchedOn s intent)
    (hok : s.material.Ok C) : s.payload.get "public_key" = .bytes intent.predecessorOwnerPublicKey ∧
      s.payload.get pendingPublicKeyKey = .bytes intent.successorOwnerPublicKey := by
  obtain ⟨-, intent', hvalue, hpred, hsucc⟩ := hok.intent hl.has
  cases hl.value.symm.trans hvalue
  exact ⟨hpred, hsucc⟩

theorem bindEnd_ends (hC : C.Correct) (hs : (h.sessions i).Holds C c dek) (intent : RotationDispatchIntent)
    (environment : Str) (approved : Bool) :
    Ends (bindEnd C M i intent environment approved) h
      (fun bound h' => approved = true ∧ ∃ c' m, Binds (h.sessions i) intent bound environment m ∧
        Resealed C c dek c' m ∧ Saved i h h' c' m ∧ SameSide h h')
      (Refused M i h (Resealing C c dek fun m => approved = true ∧ ∃ bound,
        Binds (h.sessions i) intent bound environment m)) := by
  unfold bindEnd
  refine checks_then touch_checks (Ready.refl h) fun _ h1 _ hr1 => ?_
  refine reject_then (by decide) hr1 fun happroved => ?_
  have happroved : approved = true := by simpa using happroved
  refine checks_then dispatchIntent_checks hr1 fun current h3 hcurrent hr3 => ?_
  refine reject_then (by decide) hr3 fun heq => ?_
  rw [not_not] at heq
  subst heq
  have hlatched := dispatchIntent_ok hcurrent
  have hlatched : LatchedOn (h.sessions i) intent := ⟨by rw [← hr1.same.payload]; exact hlatched.has,
    by rw [← hr1.same.payload]; exact hlatched.value⟩
  refine lift_then (make_fails (by decide) _) hr3 fun bound hmake => Ends.bind_run rfl ?_
  have hbound : bound.toRotationBinding = { intent.toRotationBinding with environment := some environment } := by
    unfold RotationDispatchIntent.make at hmake
    split_ifs at hmake
    cases Except.ok.inj hmake
    rfl
  have hturn : Binds (h.sessions i) intent bound environment
      ⟨(h.sessions i).payload.setIntent bound, (h.sessions i).seed, (h.sessions i).pendingSeed⟩ :=
      ⟨hlatched, hbound, rfl⟩
  obtain ⟨hpred, hsucc⟩ := hlatched.keys hs.stores.ok
  have hpred' : bound.predecessorOwnerPublicKey = intent.predecessorOwnerPublicKey := by rw [hbound]
  have hsucc' : bound.successorOwnerPublicKey = intent.successorOwnerPublicKey := by rw [hbound]
  rw [hr3.same.payload]
  refine build_then hC hs hr3
    (m := ⟨(h.sessions i).payload.setIntent bound, (h.sessions i).seed, (h.sessions i).pendingSeed⟩)
    (by simp [Overrides.seed, Overrides.pending])
    (SecretMaterial.Ok.setIntent hs.stores.ok (by rw [hpred', hpred]) (by rw [hsucc', hsucc]))
    (fun _ _ => by simp [Payload.setIntent, intentKey]) (by simp) fun c' h6 hresealed hr6 _ => ?_
  refine checks_then invalidateCapabilities_checks hr6 fun _ h7 _ hr7 => ?_
  refine persist_then ⟨_, ⟨happroved, bound, hturn⟩, hresealed⟩ hr7
    (m := ⟨(h.sessions i).payload.setIntent bound, (h.sessions i).seed, (h.sessions i).pendingSeed⟩) ?_
    fun h8 hsaved hside _ => .pure ⟨happroved, c', _, hturn, hresealed, hsaved, hside⟩
  exact ⟨fun _ => rfl, fun _ => rfl, fun _ => rfl, fun s hcore => by
    simp [Session.material, hcore.seed, hcore.pendingSeed], fun _ => rfl⟩

/-! ### Leaving the latch -/

theorem latchedIntent_ok {s : Session} {intent : RotationDispatchIntent} (h : latchedIntent s = .ok intent) :
    LatchedOn s intent := by
  simp only [latchedIntent, bind_eq_ok, reject_eq_ok] at h
  obtain ⟨_, hsome, hvalue⟩ := h
  refine ⟨?_, hvalue⟩
  by_contra hhas
  exact hsome (by rw [get_of_not_has (by simpa using hhas)]; rfl)

theorem checkLatchedKeys_ok {s : Session} {intent : RotationDispatchIntent} {key : Bytes}
    (h : checkLatchedKeys C s intent = .ok key) : ∃ seed, s.pendingSeed = some seed ∧ s.seed ≠ none ∧
      KeyPair C seed (s.payload.get pendingPublicKeyKey) key ∧ key = intent.successorOwnerPublicKey := by
  simp only [checkLatchedKeys, rotationKeys, bind_eq_ok, reject_eq_ok, pure_eq_ok, publicKeyForSecret_eq_ok, not_or,
    not_not, asBytes_eq_some] at h
  obtain ⟨_, ⟨hseed, -, -, hsucc⟩, keys, ⟨_, -, pending, ⟨seed, hs, hpair⟩, rfl⟩, rfl⟩ := h
  refine ⟨seed, hs, hseed, hpair, ?_⟩
  have := hpair.value
  rw [hsucc] at this
  exact (PayloadValue.bytes.inj this).symm

/-- What `finalize` stores. -/
def Promotes (s : Session) (intent : RotationDispatchIntent) (m : SecretMaterial) : Prop :=
  LatchedOn s intent ∧ s.pendingSeed ≠ none ∧
    m = ⟨((s.payload.setBytes "public_key" intent.successorOwnerPublicKey).pop pendingPublicKeyKey).pop intentKey,
      s.pendingSeed, none⟩

/-- What `finalize` and `resolve` leave of the latch. -/
structure Cleared (h h' : Host σ) (adapter : ℕ) (intent : RotationDispatchIntent) : Prop where
  latched : ∃ ready, (h.world.latches adapter) intent.ownerName = some (intent.toRotationBinding, ready)
  latches : h'.world.latches = Function.update h.world.latches adapter
    ((h.world.latches adapter).put intent.ownerName none)

theorem clearLatch_run {h : Host σ} {a : ℕ} {intent : RotationDispatchIntent}
    (hl : (h.world.latches a).isLatched intent.toRotationBinding = true) :
    net (clearLatch a intent.toRotationBinding) h = (.ok true, { h with
      world := h.world.setLatches a ((h.world.latches a).put intent.ownerName none) }) := by
  simp [net, clearLatch, Latches.clear_of_isLatched hl, Except.mapError]

theorem finalize_ends (hC : C.Correct) (hs : (h.sessions i).Holds C c dek) (confirmation : RotationConfirmation) :
    Ends (finalizeSigningKeyRotation C M i confirmation) h
      (fun key h' => ∃ intent c' m, Promotes (h.sessions i) intent m ∧
        confirmation.binding = intent.toRotationBinding ∧ key = intent.successorOwnerPublicKey ∧ Resealed C c dek c' m ∧
        Saved i h h' c' m ∧ Cleared h h' confirmation.adapter intent ∧ h'.world.consumed = h.world.consumed)
      (Refused M i h (Resealing C c dek fun m => ∃ intent, Promotes (h.sessions i) intent m ∧
        confirmation.binding = intent.toRotationBinding)) := by
  unfold finalizeSigningKeyRotation
  refine checks_then touch_checks (Ready.refl h) fun _ h1 _ hr1 => Ends.bind_run rfl ?_
  refine lift_then (latchedIntent_fails _) hr1 fun intent hintent => ?_
  have hlatched := latchedIntent_ok hintent
  have hlatched : LatchedOn (h.sessions i) intent := ⟨by rw [← hr1.same.payload]; exact hlatched.has,
    by rw [← hr1.same.payload]; exact hlatched.value⟩
  refine reject_then (by decide) hr1 fun hmatch => ?_
  have hbinding := RotationConfirmation.matchesIntent_iff.1 (by simpa using hmatch)
  refine lift_then (checkLatchedKeys_fails _ _) hr1 fun successor hkeys => ?_
  obtain ⟨seed, hpending, -, hpair, rfl⟩ := checkLatchedKeys_ok hkeys
  rw [hr1.same.pendingSeed] at hpending
  rw [hr1.same.payload] at hpair
  refine reject_then (by decide) hr1 fun _ => ?_
  refine checks_then (isLatched_checks _ _) hr1 fun latched h6 hisl hr6 => ?_
  refine reject_then (by decide) hr6 fun htrue => ?_
  have hregistered : (h.world.latches confirmation.adapter).isLatched intent.toRotationBinding = true := by
    cases hisl
    rw [← hr1.latches]
    simpa using htrue
  refine checks_then invalidateCapabilities_checks hr6 fun _ h8 _ hr8 => ?_
  have hturn : Promotes (h.sessions i) intent _ := ⟨hlatched, by simp [hpending], rfl⟩
  rw [hr1.same.payload, hr1.same.pendingSeed]
  refine build_then hC hs hr8 (m := ⟨(((h.sessions i).payload.setBytes "public_key" intent.successorOwnerPublicKey).pop
      pendingPublicKeyKey).pop intentKey, (h.sessions i).pendingSeed, none⟩)
    (by simp [Overrides.seed, Overrides.pending, hpending]) (SecretMaterial.Ok.promote hs.stores.ok hpending hpair)
    (by simp [hpending]) (fun _ => by simp [pendingPublicKeyKey, intentKey]) fun c' h9 hresealed hr9 _ => ?_
  refine persist_then ⟨_, ⟨intent, hturn, hbinding⟩,
    hresealed⟩ hr9 (m := ⟨(((h.sessions i).payload.setBytes "public_key"
      intent.successorOwnerPublicKey).pop pendingPublicKeyKey).pop intentKey, (h.sessions i).pendingSeed, none⟩) ?_
    fun h10 hsaved hside _ => ?_
  · exact ⟨fun _ => rfl, fun _ => rfl, fun _ => rfl, fun s hcore => by
      simp [Session.material, Session.promoted, hcore.pendingSeed], fun _ => rfl⟩
  have hregistered10 : (h10.world.latches confirmation.adapter).isLatched intent.toRotationBinding = true := by
    rw [hside.latches]
    exact hregistered
  refine Ends.bind_run (clearLatch_run hregistered10)
    (Ends.bind_run rfl (.pure ⟨intent, c', _, hturn, hbinding, rfl, hresealed, hsaved.world rfl le_rfl,
    ⟨Latches.isLatched_iff.1 hregistered, ?_⟩, hside.consumed⟩))
  simp only [World.setLatches, hside.latches]

/-- What `resolve` stores. -/
def Unlatches (s : Session) (intent : RotationDispatchIntent) (m : SecretMaterial) : Prop :=
  LatchedOn s intent ∧ m = ⟨s.payload.pop intentKey, s.seed, s.pendingSeed⟩

/-- A one-use object is used. -/
def Host.claim (h : Host σ) (id : ℕ) : Host σ := { h with world := { h.world with consumed := id :: h.world.consumed } }

/-- A one-use object is given back. -/
def Host.unclaim (h : Host σ) (id : ℕ) : Host σ :=
  { h with world := { h.world with consumed := h.world.consumed.filter (· ≠ id) } }

/-- An operation that used a rejection and gives it back. -/
theorem Refused.unclaim {h h' : Host σ} {id : ℕ} {N : Container → Prop} {e : Raised} (hid : id ∉ h.world.consumed)
    (hr : Refused M i (h.claim id) N e h') : Refused M i h N e (h'.unclaim id) := by
  have hbeside : Beside i (h.claim id) h' → Beside i h (h'.unclaim id) := fun hb =>
    ⟨hb.files, hb.log, hb.fresh, hb.nextSession, hb.others, hb.path, hb.tracked, hb.signers⟩
  have hconsumed : h'.world.consumed = (h.claim id).world.consumed →
      (h'.unclaim id).world.consumed = h.world.consumed := fun hc => by
    simp only [Host.unclaim, Host.claim] at hc ⊢
    rw [hc, List.filter_cons_of_neg (by simp), List.filter_eq_self]
    intro j hj
    simpa using fun heq : j = id => hid (heq ▸ hj)
  cases hr with
  | stopped hs =>
    exact .stopped ⟨⟨hbeside hs.toBeside, hs.file, hs.latches, hconsumed hs.consumed⟩, hs.known,
      hs.held.imp_right fun hi => ⟨hi.error, hi.locked, hi.silent⟩⟩
  | unknown hl =>
    exact .unknown ⟨hbeside hl.toBeside, hl.latches, hconsumed hl.consumed, hl.locked, hl.silent, hl.file⟩
  | gone hg => exact .gone ⟨hbeside hg.toBeside, hg.latches, hconsumed hg.consumed, hg.same, hg.file, hg.loses⟩

theorem Saved.unclaim {h h' : Host σ} {id : ℕ} {c' : Container} {m : SecretMaterial}
    (hs : Saved i (h.claim id) h' c' m) : Saved i h h' c' m :=
  ⟨⟨hs.files, hs.log, hs.fresh, hs.nextSession, hs.others, hs.path, hs.tracked, hs.signers⟩, hs.file,
    hs.envelope, hs.key, hs.material⟩

/-- The container is persisted, or the rejection is given back. -/
theorem persistOrRelease_ends (hC : C.Correct) {h : Host σ} {id : ℕ} {N : Container → Prop} {updated : Payload}
    (hs : (h.sessions i).Holds C c dek) (hid : id ∉ h.world.consumed)
    (hok : SecretMaterial.Ok C ⟨updated, (h.sessions i).seed, (h.sessions i).pendingSeed⟩)
    (hkey : updated.get "public_key" = (h.sessions i).payload.get "public_key")
    (hN : ∀ c', Resealed C c dek c' ⟨updated, (h.sessions i).seed, (h.sessions i).pendingSeed⟩ → N c') :
    Ends (persistOrRelease C M i id updated) (h.claim id)
      (fun c' h' => Resealed C c dek c' ⟨updated, (h.sessions i).seed, (h.sessions i).pendingSeed⟩ ∧
        ∃ h1, Ready i (h.claim id) h1 ∧ Persisted i h1 h' c')
      (Refused M i h N) := by
  refine Ends.tryCatch (G := Refused M i (h.claim id) N) ?_ fun e h' hr =>
    Ends.bind_run rfl (.raise (hr.unclaim hid))
  have hok' : SecretMaterial.Ok C ⟨updated, ({} : Overrides).seed ((h.claim id).sessions i),
      ({} : Overrides).pending ((h.claim id).sessions i)⟩ := by
    simpa [Overrides.seed, Overrides.pending, Host.claim] using hok
  have hbuild := buildEnvelope_ends (M := M) (i := i) (h := h.claim id) hC hs hok' (fun _ _ => hkey) (by simp)
  refine (hbuild.mono (fun _ _ hq => hq) fun e h' he => .stopped he).bind fun c' h1 hq => ?_
  have hresealed : Resealed C c dek c' ⟨updated, (h.sessions i).seed, (h.sessions i).pendingSeed⟩ := by
    simpa [Overrides.seed, Overrides.pending, Host.claim] using hq.2
  refine ((persistEnvelope_ends h1 c' (hN c' hresealed)).mono (fun _ _ hp => hp) fun e h' he => hq.1.refused he).bind
    fun _ h2 hp => .pure ⟨hresealed, h1, hq.1, hp⟩

theorem resolve_ends (hC : C.Correct) (hs : (h.sessions i).Holds C c dek) (rejection : RotationDispatchRejection P) :
    Ends (resolveSigningKeyRotationRejection P C M i rejection) h
      (fun _ h' => ∃ intent c' m, Unlatches (h.sessions i) intent m ∧
        rejection.publication.binding = intent.toRotationBinding ∧ Resealed C c dek c' m ∧ Saved i h h' c' m ∧
        Cleared h h' rejection.publication.adapter intent ∧ rejection.id ∉ h.world.consumed ∧
        h'.world.consumed = rejection.id :: h.world.consumed)
      (Refused M i h (Resealing C c dek fun m => ∃ intent, Unlatches (h.sessions i) intent m ∧
        rejection.publication.binding = intent.toRotationBinding)) := by
  unfold resolveSigningKeyRotationRejection
  refine checks_then touch_checks (Ready.refl h) fun _ h1 _ hr1 => Ends.bind_run rfl ?_
  refine lift_then (latchedIntent_fails _) hr1 fun intent hintent => ?_
  have hlatched := latchedIntent_ok hintent
  have hlatched : LatchedOn (h.sessions i) intent := ⟨by rw [← hr1.same.payload]; exact hlatched.has,
    by rw [← hr1.same.payload]; exact hlatched.value⟩
  refine reject_then (by decide) hr1 fun hmatch => ?_
  have hbinding : rejection.publication.binding = intent.toRotationBinding :=
    RotationPublication.matchesIntent_iff.1 (by simpa [RotationDispatchRejection.matchesIntent] using hmatch)
  refine lift_then (checkLatchedKeys_fails _ _) hr1 fun successor hkeys => ?_
  refine checks_then (isLatched_checks _ _) hr1 fun latched h2 hisl hr2 => ?_
  refine reject_then (by decide) hr2 fun htrue => ?_
  have hregistered : (h.world.latches rejection.publication.adapter).isLatched intent.toRotationBinding = true := by
    cases hisl
    rw [← hr1.latches]
    simpa using htrue
  by_cases hid : rejection.id ∈ h2.world.consumed
  · have hused : net (consume rejection.id) h2 = (.ok false, h2) := by
      simp [net, consume, hid, Except.mapError]
    exact Ends.bind_run hused (reject_then (by decide) hr2 fun hf => absurd rfl hf)
  have hclaim : net (consume rejection.id) h2 = (.ok true, h2.claim rejection.id) := by
    simp [net, consume, hid, Except.mapError, Host.claim]
  refine Ends.bind_run hclaim (Ends.bind_run rfl ?_)
  have hturn : Unlatches (h.sessions i) intent
      ⟨(h.sessions i).payload.pop intentKey, (h.sessions i).seed, (h.sessions i).pendingSeed⟩ := ⟨hlatched, rfl⟩
  have hpop : SecretMaterial.Ok C ⟨(h.sessions i).payload.pop intentKey, (h2.sessions i).seed,
      (h2.sessions i).pendingSeed⟩ := by
    rw [hr2.same.seed, hr2.same.pendingSeed]
    exact SecretMaterial.Ok.popIntent hs.stores.ok
  have hpersist := persistOrRelease_ends (M := M) (i := i) (h := h2)
    (N := Resealing C c dek fun m => ∃ intent, Unlatches (h.sessions i) intent m ∧
        rejection.publication.binding = intent.toRotationBinding) hC (hs.of_core hr2.same) hid hpop
    (by simp [hr2.same.payload, intentKey]) fun c' hc' => ⟨_, ⟨intent, hturn, hbinding⟩, by
      rwa [hr2.same.seed, hr2.same.pendingSeed] at hc'⟩
  rw [hr1.same.payload]
  refine (hpersist.mono (fun _ _ hq => hq) fun e h' he => hr2.refused he).bind fun c' h3 hq => ?_
  obtain ⟨hresealed, h4, hr4, hp⟩ := hq
  rw [hr2.same.seed, hr2.same.pendingSeed] at hresealed
  have hinstalls : Installs ((h2.claim rejection.id).sessions i)
      (fun s => { s with payload := (h.sessions i).payload.pop intentKey, envelope := some c' }) c'
      ⟨(h.sessions i).payload.pop intentKey, (h.sessions i).seed, (h.sessions i).pendingSeed⟩ :=
    ⟨fun _ => rfl, fun _ => rfl, fun _ => rfl, fun s hcore => by
      simp [Session.material, hcore.seed, hcore.pendingSeed, Host.claim, hr2.same.seed, hr2.same.pendingSeed],
      fun _ => rfl⟩
  have hsaved := (saved_install hr4 hp hinstalls).ready (ready_invalidate _)
  have hlatches : h3.world.latches = h.world.latches := by rw [hp.latches, hr4.latches]; exact hr2.latches
  have hconsumed : h3.world.consumed = rejection.id :: h.world.consumed := by
    rw [hp.consumed, hr4.consumed, ← hr2.consumed]
    rfl
  have hregistered3 : (h3.world.latches rejection.publication.adapter).isLatched intent.toRotationBinding = true := by
    rw [hlatches]
    exact hregistered
  refine Ends.bind_run rfl (Ends.bind_run rfl (Ends.bind_run (clearLatch_run hregistered3)
    (.pure ⟨intent, c', _, hturn, hbinding, hresealed, (hr2.saved hsaved.unclaim).world rfl le_rfl,
      ⟨Latches.isLatched_iff.1 hregistered, ?_⟩, by rwa [← hr2.consumed], hconsumed⟩)))
  exact congrArg (fun l => Function.update l rejection.publication.adapter
    ((l rejection.publication.adapter).put intent.ownerName none)) hlatches

end

end DecentWallet
