import DecentWallet.Sanity.Opening
import DecentWallet.Spec.WalletRun

/-! One step of a wallet: everything an operation can do to the host, in one statement. -/

namespace DecentWallet

open Raised Prog

variable {σ : Type} {P : Platform} {C : Crypto} {M : Machine σ} {i : ℕ}

/-! ### Signers and exports -/

/-- A capability was made for session `i`; nothing else has changed. -/
structure Minted (i : ℕ) (h h' : Host σ) (id : ℕ) : Prop where
  files : ∀ p, h'.dataAt p = h.dataAt p
  log : h'.world.log = h.world.log
  latches : h'.world.latches = h.world.latches
  consumed : h'.world.consumed = h.world.consumed
  fresh : h.world.fresh ≤ h'.world.fresh
  nextSession : h'.nextSession = h.nextSession
  others : ∀ j, j ≠ i → h'.sessions j = h.sessions j
  same : SameCore (h.sessions i) (h'.sessions i)
  free : (h.sessions i).payload.has intentKey = false
  tracked : h.Tracked → h'.Tracked
  signers : ∀ j s, h'.signers j = some s → s.active = true → h.signers j = some s ∨ (j = id ∧ s.wallet = i)

/-- The host after a new object was made and kept as the capability `s`. -/
def Host.mint (h : Host σ) (s : Signer) : Host σ :=
  { h with
    world := { h.world with fresh := h.world.fresh + 1 }
    signers := Function.update h.signers h.world.fresh (some s) }

theorem mint_signers {h : Host σ} {s t : Signer} {j : ℕ} (hj : (h.mint s).signers j = some t) :
    h.signers j = some t ∨ (j = h.world.fresh ∧ t = s) := by
  by_cases hid : j = h.world.fresh
  · subst hid
    simp only [Host.mint, Function.update_self, Option.some.injEq] at hj
    exact .inr ⟨rfl, hj.symm⟩
  · simp only [Host.mint, Function.update_of_ne hid] at hj
    exact .inl hj

/-- A capability that is invalidated at once. -/
theorem ready_mint (h : Host σ) {s : Signer} (hs : s.active = false) : Ready i h (h.mint s) := by
  have hsigners : ∀ j t, (h.mint s).signers j = some t → t.active = true → h.signers j = some t := by
    intro j t hj ha
    rcases mint_signers hj with hold | ⟨-, rfl⟩
    · exact hold
    · rw [hs] at ha
      cases ha
  exact
    { files := fun _ _ => rfl
      log := rfl
      fresh := Nat.le_succ _
      nextSession := rfl
      others := fun _ _ => rfl
      path := rfl
      tracked := fun ht j t hj ha => ht j t (hsigners j t hj ha) ha
      signers := hsigners
      file := rfl
      latches := rfl
      consumed := rfl
      same := .refl _ }

/-- The host after a capability was handed out. -/
def Host.handOut (h : Host σ) (i : ℕ) (s : Signer) : Host σ :=
  (h.mint s).setSession i { h.sessions i with capabilities := h.world.fresh :: (h.sessions i).capabilities }

theorem minted_handOut {h0 h : Host σ} (h0h : Ready i h0 h) (hfree : (h0.sessions i).payload.has intentKey = false)
    {s : Signer} (hs : s.wallet = i) : Minted i h0 (h.handOut i s) h.world.fresh where
  files := h0h.dataAt
  log := h0h.log
  latches := h0h.latches
  consumed := h0h.consumed
  fresh := h0h.fresh.trans (Nat.le_succ _)
  nextSession := h0h.nextSession
  others := fun j hj => (Function.update_of_ne hj _ _).trans (h0h.others j hj)
  same := h0h.same.trans (by simpa [Host.handOut, Host.setSession] using ⟨rfl, rfl, rfl, rfl, rfl, rfl⟩)
  free := hfree
  tracked := fun ht j t hj ha => by
    rcases mint_signers hj with hold | ⟨rfl, rfl⟩
    · have := h0h.tracked ht j t hold ha
      by_cases hw : t.wallet = i
      · rw [hw] at this
        simpa [Host.handOut, Host.setSession, hw] using .inr this
      · simpa [Host.handOut, Host.setSession, hw, Host.mint] using this
    · simp [Host.handOut, Host.setSession, hs]
  signers := fun j t hj ha => by
    rcases mint_signers hj with hold | ⟨rfl, rfl⟩
    · exact .inl (h0h.signers j t hold ha)
    · exact .inr ⟨rfl, hs⟩

theorem createSigner_ends (h : Host σ) (timeoutSeconds : ℤ) (N : Container → Prop) :
    Ends (createSigner C M i timeoutSeconds) h (fun id h' => Minted i h h' id) (Refused M i h N) := by
  unfold createSigner
  refine checks_then touch_checks (Ready.refl h) fun _ h1 _ hr1 => ?_
  refine checks_then ensure_checks hr1 fun _ h2 hensure hr2 => Ends.bind_run rfl ?_
  have hfree := not_latched_of_ensure hensure
  rw [hr1.same.payload] at hfree
  refine lift_then (Fails.orRaise (by decide) _) hr2 fun seed _ => ?_
  refine lift_then (Fails.orRaise (by decide) _) hr2 fun stored _ => ?_
  refine reject_then (by decide) hr2 fun _ => reject_then (by decide) hr2 fun _ => ?_
  refine lift_then (Fails.orRaise (by decide) _) hr2 fun publicKey _ => ?_
  refine checks_then (ask_checks _) hr2 fun now h3 _ hr3 => Ends.bind_run rfl (Ends.bind_run rfl ?_)
  by_cases hkey : publicKey = stored
  · refine Ends.bind_run (a := ()) (reject_ok_iff.2 ⟨by simpa using hkey, rfl⟩) (Ends.bind_run rfl (.pure ?_))
    exact minted_handOut hr3 hfree rfl
  · refine reject_then (by decide) (hr3.trans (ready_mint h3 ?_)) fun hne => absurd (by simpa using hne) hkey
    simpa using hkey

theorem readContainer_checks (path : Path) : Checks i (readContainer M path) := by
  intro h
  have hcall : ∀ h' : Host σ, OnlyFile path h h' → SameFiles h h' → Ready i h h' := fun h' ho hs =>
    { files := fun p _ => hs.dataAt p
      log := ho.log
      fresh := ho.fresh.ge
      nextSession := ho.nextSession
      others := fun j _ => by rw [ho.sessions]
      path := by rw [ho.sessions]
      tracked := fun ht j s hj ha => by
        rw [ho.signers] at hj
        rw [ho.sessions]
        exact ht j s hj ha
      signers := fun j s hj _ => by rwa [← ho.signers]
      file := hs.dataAt _
      latches := ho.latches
      consumed := ho.consumed
      same := by rw [ho.sessions]; exact .refl _ }
  rcases hread : readBytes M path h with ⟨r, h1⟩
  have hready := hcall h1 ((readBytes_only path).of_run hread) ((readBytes_same path).of_run hread)
  refine Ends.bind_run (attempt_ok_iff.2 hread) ?_
  rcases r with e | data
  · exact .raise (hready.stopped (.refl _ (by decide)))
  · exact .pure hready

theorem exportContainer_checks : Checks i (exportContainer C M i) :=
  touch_checks.bind fun _ => (session_checks i).bind fun _ => (readContainer_checks _).bind fun _ =>
    (Checks.lift (parseContainer_fails (by decide) (by decide) (fun _ l _ _ => l.raised_known) _)).bind fun _ =>
    (Checks.reject (by decide) _).bind fun _ => Checks.pure _

/-! ### One step -/

/-- The container an operation writes, and the material in it. -/
inductive Writes (C : Crypto) (s : Session) (c : Container) (dek : Bytes) :
    WalletOp P → Container → SecretMaterial → Prop where
  | update {payload : Payload} {c' : Container} {m : SecretMaterial} :
      Updates s payload m → Resealed C c dek c' m → Writes C s c dek (.updatePayload payload) c' m
  | rewrap {password confirmation : Str} {c' : Container} :
      Rewraps C c dek password c' → Writes C s c dek (.changePassword password confirmation) c' s.material
  | stage {key : Bytes} {c' : Container} {m : SecretMaterial} :
      Stages s key m → Resealed C c dek c' m → Writes C s c dek .prepare c' m
  | unstage {c' : Container} {m : SecretMaterial} :
      Unstages s m → Resealed C c dek c' m → Writes C s c dek .cancel c' m
  | latch {bundle : IdentityBundle P} {pub : RotationPublication P} {intent : RotationDispatchIntent} {c' : Container}
      {m : SecretMaterial} : pub.binding = intent.toRotationBinding → LatchesOn s intent m → Resealed C c dek c' m →
      Writes C s c dek (.latch bundle pub) c' m
  | bind {intent bound : RotationDispatchIntent} {environment : Str} {c' : Container} {m : SecretMaterial} :
      Binds s intent bound environment m → Resealed C c dek c' m →
      Writes C s c dek (.bindEnd intent environment true) c' m
  | promote {confirmation : RotationConfirmation} {intent : RotationDispatchIntent} {c' : Container}
      {m : SecretMaterial} : confirmation.binding = intent.toRotationBinding → Promotes s intent m →
      Resealed C c dek c' m → Writes C s c dek (.finalize confirmation) c' m
  | unlatch {rejection : RotationDispatchRejection P} {intent : RotationDispatchIntent} {c' : Container}
      {m : SecretMaterial} : rejection.publication.binding = intent.toRotationBinding → Unlatches s intent m →
      Resealed C c dek c' m → Writes C s c dek (.resolve rejection) c' m

/-- What an operation that wrote has done on the adapter's side. -/
inductive Side (h h' : Host σ) : WalletOp P → WalletResult → Prop where
  | same {op : WalletOp P} {a : WalletResult} : SameSide h h' → Side h h' op a
  | latch {bundle : IdentityBundle P} {pub : RotationPublication P} {permit : RotationDispatchPermit} :
      pub.binding = permit.intent.toRotationBinding → Registered h h' pub.adapter permit.intent →
      Side h h' (.latch bundle pub) (.permit permit)
  | finalize {confirmation : RotationConfirmation} {intent : RotationDispatchIntent} {a : WalletResult} :
      confirmation.binding = intent.toRotationBinding → Cleared h h' confirmation.adapter intent →
      h'.world.consumed = h.world.consumed → Side h h' (.finalize confirmation) a
  | resolve {rejection : RotationDispatchRejection P} {intent : RotationDispatchIntent} {a : WalletResult} :
      rejection.publication.binding = intent.toRotationBinding → Cleared h h' rejection.publication.adapter intent →
      rejection.id ∉ h.world.consumed → h'.world.consumed = rejection.id :: h.world.consumed →
      Side h h' (.resolve rejection) a

def WalletOp.isLatch : WalletOp P → Bool
  | .latch _ _ => true
  | _ => false

/-- How an operation of an unlocked session may end. -/
inductive Outcome (C : Crypto) (M : Machine σ) (i : ℕ) (h : Host σ) (c : Container) (dek : Bytes) (op : WalletOp P) :
    Except Raised WalletResult → Host σ → Prop where
  | refused {e : Raised} {h' : Host σ} : Stopped i h e h' → Outcome C M i h c dek op (.error e) h'
  | unknown {h' : Host σ} : Lost i h h' (fun c' => ∃ m, Writes C (h.sessions i) c dek op c' m) →
      Outcome C M i h c dek op (.error storageOutcomeUnknown) h'
  | gone {h' : Host σ} : Gone M i h h' → Outcome C M i h c dek op (.error storageFailure) h'
  | read {a : WalletResult} {h' : Host σ} : op.rewrites (h.sessions i) = false → Ready i h h' →
      Outcome C M i h c dek op (.ok a) h'
  | minted {timeoutSeconds : ℤ} {id : ℕ} {h' : Host σ} : op = .createSigner timeoutSeconds → Minted i h h' id →
      Outcome C M i h c dek op (.ok (.signer id)) h'
  | locked {a : WalletResult} {h' : Host σ} : op = .lock → Lost i h h' (fun _ => False) →
      Outcome C M i h c dek op (.ok a) h'
  | saved {a : WalletResult} {h' : Host σ} {c' : Container} {m : SecretMaterial} :
      Writes C (h.sessions i) c dek op c' m → Saved i h h' c' m → Side h h' op a →
      (op.isLatch = true → h.Tracked → h'.Silent i) → Outcome C M i h c dek op (.ok a) h'

theorem Lost.mono {h h' : Host σ} {N N' : Container → Prop} (hl : Lost i h h' N) (hN : ∀ c, N c → N' c) :
    Lost i h h' N' :=
  ⟨hl.toBeside, hl.latches, hl.consumed, hl.locked, hl.silent, hl.file.imp_right fun hor => hor.imp_right fun hex => by
    obtain ⟨c, data, hc, hdata⟩ := hex
    exact ⟨c, data, hN c hc, hdata⟩⟩

theorem lost_lock (h : Host σ) :
    Lost i h ((h.invalidate (h.sessions i).capabilities).setSession i (h.sessions i).locked) fun _ => False where
  toBeside := beside_lock h
  latches := rfl
  consumed := rfl
  locked := by simpa [Host.setSession] using locked_locked _
  silent := fun ht => silent_invalidate ht _
  file := .inl rfl

section

variable {h : Host σ} {c : Container} {dek : Bytes} {op : WalletOp P}

theorem Refused.outcome {N : Container → Prop} {e : Raised} {h' : Host σ} (hr : Refused M i h N e h')
    (hN : ∀ c', N c' → ∃ m, Writes C (h.sessions i) c dek op c' m) : Outcome C M i h c dek op (.error e) h' := by
  cases hr with
  | stopped hs => exact .refused hs
  | unknown hl => exact .unknown (hl.mono hN)
  | gone hg => exact .gone hg

theorem Checks.outcome {α : Type} {x : Proc σ α} (hx : Checks i x) (f : α → WalletResult)
    (hop : op.rewrites (h.sessions i) = false) :
    Ends (f <$> x) h (fun a h' => Outcome C M i h c dek op (.ok a) h')
      fun e h' => Outcome C M i h c dek op (.error e) h' :=
  Ends.map ((hx h).mono (fun _ _ hr => .read hop hr) fun _ _ hr => .refused hr)

/-- Everything an operation of an unlocked session can do. -/
theorem walletOp_ends (hC : C.Correct) (hs : (h.sessions i).Holds C c dek) (op : WalletOp P) :
    Ends (op.run C M i) h (fun a h' => Outcome C M i h c dek op (.ok a) h')
      fun e h' => Outcome C M i h c dek op (.error e) h' := by
  cases op with
  | updatePayload payload =>
    refine Ends.map ((updatePayload_ends hC hs payload).mono ?_ fun e h' hr => hr.outcome ?_)
    · rintro _ h' ⟨c', m, hturn, hresealed, hsaved, hside⟩
      exact .saved (.update hturn hresealed) hsaved (.same hside) Bool.noConfusion
    · rintro c' ⟨m, hturn, hresealed⟩
      exact ⟨m, .update hturn hresealed⟩
  | changePassword password confirmation =>
    refine Ends.map ((changePassword_ends hC hs password confirmation).mono ?_ fun e h' hr => hr.outcome ?_)
    · rintro _ h' ⟨-, c', hrewraps, hsaved, hside⟩
      exact .saved (.rewrap hrewraps) hsaved (.same hside) Bool.noConfusion
    · exact fun c' hrewraps => ⟨_, .rewrap hrewraps⟩
  | createSigner timeoutSeconds =>
    exact Ends.map ((createSigner_ends h timeoutSeconds fun _ => False).mono (fun _ _ hm => .minted rfl hm)
      fun e h' hr => hr.outcome (by simp))
  | prepare =>
    refine Ends.map ((prepare_ends hC hs).mono ?_ fun e h' hr => hr.outcome ?_)
    · rintro key h' (⟨hready, hpending⟩ | ⟨c', m, hturn, hresealed, hsaved, hside⟩)
      · exact .read (by simpa [WalletOp.rewrites, Option.isSome_iff_ne_none] using hpending) hready
      · exact .saved (.stage hturn hresealed) hsaved (.same hside) Bool.noConfusion
    · rintro c' ⟨m, ⟨key, hturn⟩, hresealed⟩
      exact ⟨m, .stage hturn hresealed⟩
  | provePending draft => exact (provePending_checks draft).outcome _ rfl
  | cancel =>
    refine Ends.map ((cancel_ends hC hs).mono ?_ fun e h' hr => hr.outcome ?_)
    · rintro _ h' (⟨hready, hpending⟩ | ⟨c', m, hturn, hresealed, hsaved, hside⟩)
      · exact .read (by simpa [WalletOp.rewrites] using hpending) hready
      · exact .saved (.unstage hturn hresealed) hsaved (.same hside) Bool.noConfusion
    · rintro c' ⟨m, hturn, hresealed⟩
      exact ⟨m, .unstage hturn hresealed⟩
  | latch bundle publication =>
    refine Ends.map ((latch_ends hC hs bundle publication).mono ?_ fun e h' hr => hr.outcome ?_)
    · rintro permit h' ⟨hbinding, c', m, hturn, hresealed, hsaved, hregistered, hsilent⟩
      exact .saved (.latch hbinding hturn hresealed) hsaved (.latch hbinding hregistered) fun _ => hsilent
    · rintro c' ⟨m, ⟨intent, hturn, hbinding⟩, hresealed⟩
      exact ⟨m, .latch hbinding hturn hresealed⟩
  | bindBegin environment => exact (bindBegin_checks environment).outcome _ rfl
  | bindEnd intent environment approved =>
    refine Ends.map ((bindEnd_ends hC hs intent environment approved).mono ?_ fun e h' hr => hr.outcome ?_)
    · rintro bound h' ⟨rfl, c', m, hturn, hresealed, hsaved, hside⟩
      exact .saved (.bind hturn hresealed) hsaved (.same hside) Bool.noConfusion
    · rintro c' ⟨m, ⟨rfl, bound, hturn⟩, hresealed⟩
      exact ⟨m, .bind hturn hresealed⟩
  | finalize confirmation =>
    refine Ends.map ((finalize_ends hC hs confirmation).mono ?_ fun e h' hr => hr.outcome ?_)
    · rintro key h' ⟨intent, c', m, hturn, hbinding, -, hresealed, hsaved, hcleared, hconsumed⟩
      exact .saved (.promote hbinding hturn hresealed) hsaved (.finalize hbinding hcleared hconsumed) Bool.noConfusion
    · rintro c' ⟨m, ⟨intent, hturn, hbinding⟩, hresealed⟩
      exact ⟨m, .promote hbinding hturn hresealed⟩
  | resolve rejection =>
    refine Ends.map ((resolve_ends hC hs rejection).mono ?_ fun e h' hr => hr.outcome ?_)
    · rintro _ h' ⟨intent, c', m, hturn, hbinding, hresealed, hsaved, hcleared, hfresh, hconsumed⟩
      exact .saved (.unlatch hbinding hturn hresealed) hsaved (.resolve hbinding hcleared hfresh hconsumed)
        Bool.noConfusion
    · rintro c' ⟨m, ⟨intent, hturn, hbinding⟩, hresealed⟩
      exact ⟨m, .unlatch hbinding hturn hresealed⟩
  | exportContainer => exact exportContainer_checks.outcome _ rfl
  | lock => exact Ends.map (Ends.modify (.locked rfl (lost_lock h)))

theorem walletOp_outcome (hC : C.Correct) (hs : (h.sessions i).Holds C c dek) {r : Except Raised WalletResult}
    {h' : Host σ} (hr : op.run C M i h = (r, h')) : Outcome C M i h c dek op r h' := by
  cases r with
  | ok a => exact (walletOp_ends hC hs op).ok hr
  | error e => exact (walletOp_ends hC hs op).error hr

/-- A locked session refuses everything, except that it can be locked again. -/
theorem walletOp_locked (hl : (h.sessions i).dek = none) {r : Except Raised WalletResult} {h' : Host σ}
    (hr : op.run C M i h = (r, h')) :
    (r = .error walletLocked ∧ h' = h) ∨ (op = .lock ∧ (∃ a, r = .ok a) ∧ Lost i h h' fun _ => False) := by
  have htouch : ∀ {α : Type} (f : α → WalletResult) (g : Unit → Proc σ α),
      (f <$> (touch M i >>= g)) h = (r, h') → r = .error walletLocked ∧ h' = h := by
    intro α f g hrun
    rw [show (f <$> (touch M i >>= g)) h = _ from bind_run_error (touch_locked hl g)] at hrun
    cases hrun
    exact ⟨rfl, rfl⟩
  cases op with
  | lock =>
    cases hr
    exact .inr ⟨rfl, ⟨_, rfl⟩, lost_lock h⟩
  | _ => exact .inl (htouch _ _ hr)

end

/-! ### Headers and passwords -/

theorem Container.Written.ownHeader {c : Container} {salt : Bytes} (h : c.Written salt) : c.OwnHeader :=
  ⟨salt, h.salt, h.kdf⟩

theorem Container.OwnHeader.headerKept {c : Container} (ho : c.OwnHeader) : c.HeaderKept := by
  obtain ⟨salt, hlen, hkdf⟩ := ho
  intro salt' hsalt
  rw [hkdf] at hsalt ⊢
  cases hsalt.symm.trans (b64Decode_encode_length hlen)
  rfl

theorem openBox_aad (hbind : C.BindsAad) {key aad aad' a b : Bytes} {box : SealedBox}
    (h : openBox C key box aad = .ok a) (h' : openBox C key box aad' = .ok b) : aad = aad' := by
  simp only [openBox, bind_eq_ok, orRaise_eq_ok] at h h'
  obtain ⟨nonce, hnonce, ciphertext, hciphertext, tag, htag, hopen⟩ := h
  obtain ⟨nonce', hnonce', ciphertext', hciphertext', tag', htag', hopen'⟩ := h'
  cases hnonce.symm.trans hnonce'
  cases hciphertext.symm.trans hciphertext'
  cases htag.symm.trans htag'
  exact hbind hopen hopen'

namespace Container.Reseals

variable {c c' : Container} {password : Str} {dek : Bytes}

theorem salt_eq (hr : c.Reseals c') {salt : Bytes} (hsalt : b64Decode c.kdf.salt (some saltLength) = .ok salt) :
    c'.Written salt ∧ b64Decode c'.kdf.salt (some saltLength) = .ok salt := by
  obtain ⟨salt', hsalt', hw⟩ := hr.header
  cases hsalt.symm.trans hsalt'
  refine ⟨hw, ?_⟩
  rw [hw.kdf]
  exact b64Decode_encode_length hw.salt

theorem trans {c'' : Container} (hr : c.Reseals c') (hr' : c'.Reseals c'') : c.Reseals c'' := by
  obtain ⟨salt, hsalt, hw⟩ := hr.header
  exact ⟨⟨salt, hsalt, (hr'.salt_eq (hr.salt_eq hsalt).2).1⟩, hr'.wrap.trans hr.wrap⟩

/-- The key is unwrapped as before where the header is kept. -/
theorem unwraps (hr : c.Reseals c') (hkept : c.HeaderKept)
    (hu : unwrapDek C c password currentFormatVersion = .ok dek) :
    unwrapDek C c' password currentFormatVersion = .ok dek := by
  obtain ⟨salt, kek, aad, hsalt, hkek, haad, hopen, hlen⟩ := unwrapDek_eq_ok.1 hu
  obtain ⟨hw, hsalt'⟩ := hr.salt_eq hsalt
  refine unwrapDek_eq_ok.2 ⟨salt, kek, aad, hsalt', hkek, ?_, ?_, hlen⟩
  · rw [hw.kdf, hkept salt hsalt, haad]
  · rw [hr.wrap, hopen]

/-- The password derives the same key, so the box opens only under the text it was sealed under. -/
theorem headerKept (hbind : C.BindsAad) (hr : c.Reseals c') {dek' : Bytes}
    (hu : unwrapDek C c password currentFormatVersion = .ok dek)
    (hu' : unwrapDek C c' password currentFormatVersion = .ok dek') : c.HeaderKept := by
  obtain ⟨salt, kek, aad, hsalt, hkek, haad, hopen, -⟩ := unwrapDek_eq_ok.1 hu
  obtain ⟨salt', kek', aad', hsalt', hkek', haad', hopen', -⟩ := unwrapDek_eq_ok.1 hu'
  obtain ⟨hw, hsame⟩ := hr.salt_eq hsalt
  cases hsame.symm.trans hsalt'
  cases hkek.symm.trans hkek'
  rw [hr.wrap] at hopen'
  intro s hs
  cases hsalt.symm.trans hs
  rw [← hw.kdf, haad', haad, openBox_aad hbind hopen hopen']

end Container.Reseals

theorem WalletOp.not_rekeys_of_rewrites {op : WalletOp P} {s : Session} {r : Except Raised WalletResult}
    (h : r.isOk = true → op.rewrites s = false) : ¬op.Rekeys r := by
  rintro ⟨⟨password, confirmation, rfl⟩, hok⟩
  cases h hok

theorem passwordThen_of_not_rekeys {op : WalletOp P} {r : Except Raised WalletResult} (h : ¬op.Rekeys r)
    (password : Str) : passwordThen op r password = password := by
  cases r with
  | error e => rfl
  | ok a =>
    cases op with
    | changePassword new confirmation => exact absurd ⟨⟨_, _, rfl⟩, rfl⟩ h
    | _ => rfl

namespace Writes

variable {s : Session} {c c' : Container} {dek : Bytes} {op : WalletOp P} {m : SecretMaterial}

theorem resealed_or (h : Writes C s c dek op c' m) :
    (Resealed C c dek c' m ∧ ∀ r, ¬op.Rekeys r) ∨
      ∃ password confirmation, op = .changePassword password confirmation ∧ Rewraps C c dek password c' ∧
      m = s.material := by
  have hnot : ∀ {op : WalletOp P}, (∀ password confirmation, op ≠ .changePassword password confirmation) →
      ∀ r, ¬op.Rekeys r := by
    rintro op hne r ⟨⟨password, confirmation, hop⟩, -⟩
    exact hne password confirmation hop
  cases h with
  | rewrap hr => exact .inr ⟨_, _, rfl, hr, rfl⟩
  | update _ hr => exact .inl ⟨hr, hnot (by simp)⟩
  | stage _ hr => exact .inl ⟨hr, hnot (by simp)⟩
  | unstage _ hr => exact .inl ⟨hr, hnot (by simp)⟩
  | latch _ _ hr => exact .inl ⟨hr, hnot (by simp)⟩
  | bind _ hr => exact .inl ⟨hr, hnot (by simp)⟩
  | promote _ _ hr => exact .inl ⟨hr, hnot (by simp)⟩
  | unlatch _ _ hr => exact .inl ⟨hr, hnot (by simp)⟩

theorem rewrites (h : Writes C s c dek op c' m) : op.rewrites s = true := by
  cases h with
  | stage hturn _ => simp [WalletOp.rewrites, hturn.2.1]
  | unstage hturn _ => simpa [WalletOp.rewrites, Option.isSome_iff_ne_none] using hturn.2.1
  | _ => rfl

theorem written (h : Writes C s c dek op c' m) : ∃ salt, c'.Written salt := by
  rcases h.resealed_or with ⟨hr, -⟩ | ⟨_, _, -, hr, -⟩
  · obtain ⟨salt, -, hw⟩ := hr.reseals.header
    exact ⟨salt, hw⟩
  · exact hr.written

theorem stores (h : Writes C s c dek op c' m) (hs : c.Stores C dek s.material) : c'.Stores C dek m := by
  rcases h.resealed_or with ⟨hr, -⟩ | ⟨_, _, -, hr, rfl⟩
  · exact hr.stores
  · exact hr.stores hs

/-- The current password unwraps the key of what is written. -/
theorem unwraps (h : Writes C s c dek op c' m) (hkept : c.HeaderKept) {password : Str}
    (hu : unwrapDek C c password currentFormatVersion = .ok dek) (a : WalletResult) :
    unwrapDek C c' (passwordThen op (.ok a) password) currentFormatVersion = .ok dek := by
  rcases h.resealed_or with ⟨hr, hp⟩ | ⟨new, _, rfl, hr, -⟩
  · rw [passwordThen_of_not_rekeys (hp _)]
    exact hr.reseals.unwraps hkept hu
  · exact hr.unwraps (length_of_unwrapDek hu)

end Writes

end DecentWallet
