import DecentWallet.Sanity.Storage
import DecentWallet.Spec.Rotation

/-! What the parts of a wallet operation before its write leave alone: the files, the adapter's side, the
other sessions, and what the session itself holds, unless it is locked for inactivity. -/

namespace DecentWallet

open Raised

variable {σ : Type} {P : Platform} {C : Crypto} {M : Machine σ} {i : ℕ}

/-! ### Frames -/

/-- What a session holds, besides its capabilities and its last activity. -/
structure SameCore (s s' : Session) : Prop where
  path : s'.path = s.path
  dek : s'.dek = s.dek
  payload : s'.payload = s.payload
  seed : s'.seed = s.seed
  pendingSeed : s'.pendingSeed = s.pendingSeed
  envelope : s'.envelope = s.envelope

theorem SameCore.refl (s : Session) : SameCore s s := ⟨rfl, rfl, rfl, rfl, rfl, rfl⟩

theorem SameCore.trans {a b c : Session} (h1 : SameCore a b) (h2 : SameCore b c) : SameCore a c :=
  ⟨h2.path.trans h1.path, h2.dek.trans h1.dek, h2.payload.trans h1.payload, h2.seed.trans h1.seed,
    h2.pendingSeed.trans h1.pendingSeed, h2.envelope.trans h1.envelope⟩

/-- What `_lock` leaves. -/
structure Session.Locked (s : Session) : Prop where
  dek : s.dek = none
  payload : s.payload = .empty
  seed : s.seed = none
  pendingSeed : s.pendingSeed = none
  envelope : s.envelope = none

/-- Every active capability is known to the wallet that made it. -/
def Host.Tracked (h : Host σ) : Prop :=
  ∀ id s, h.signers id = some s → s.active = true → id ∈ (h.sessions s.wallet).capabilities

/-- No capability of the wallet is active. -/
def Host.Silent (h : Host σ) (i : ℕ) : Prop := ∀ id s, h.signers id = some s → s.active = true → s.wallet ≠ i

/-- What an operation of session `i` leaves alone, whatever it does to the session and its file. -/
structure Beside (i : ℕ) (h h' : Host σ) : Prop where
  files : ∀ p, p ≠ (h.sessions i).path → h'.dataAt p = h.dataAt p
  log : h'.world.log = h.world.log
  fresh : h.world.fresh ≤ h'.world.fresh
  nextSession : h'.nextSession = h.nextSession
  others : ∀ j, j ≠ i → h'.sessions j = h.sessions j
  path : (h'.sessions i).path = (h.sessions i).path
  tracked : h.Tracked → h'.Tracked
  signers : ∀ id s, h'.signers id = some s → s.active = true → h.signers id = some s

instance : Std.Refl (Beside (σ := σ) i) :=
  ⟨fun _ => ⟨fun _ _ => rfl, rfl, le_rfl, rfl, fun _ _ => rfl, rfl, id, fun _ _ h _ => h⟩⟩

theorem Beside.trans {a b c : Host σ} (h1 : Beside i a b) (h2 : Beside i b c) : Beside i a c where
  files := fun p hp => (h2.files p (by rwa [h1.path])).trans (h1.files p hp)
  log := h2.log.trans h1.log
  fresh := h1.fresh.trans h2.fresh
  nextSession := h2.nextSession.trans h1.nextSession
  others := fun j hj => (h2.others j hj).trans (h1.others j hj)
  path := h2.path.trans h1.path
  tracked := fun ht => h2.tracked (h1.tracked ht)
  signers := fun id s hs ha => h1.signers id s (h2.signers id s hs ha) ha

/-- Nothing was written. -/
structure Calm (i : ℕ) (h h' : Host σ) : Prop extends Beside i h h' where
  file : h'.dataAt (h.sessions i).path = h.dataAt (h.sessions i).path
  latches : h'.world.latches = h.world.latches
  consumed : h'.world.consumed = h.world.consumed

instance : Std.Refl (Calm (σ := σ) i) := ⟨fun h => ⟨Std.Refl.refl h, rfl, rfl, rfl⟩⟩

theorem Calm.trans {a b c : Host σ} (h1 : Calm i a b) (h2 : Calm i b c) : Calm i a c where
  toBeside := h1.toBeside.trans h2.toBeside
  file := by
    have := h2.file
    rw [h1.path] at this
    exact this.trans h1.file
  latches := h2.latches.trans h1.latches
  consumed := h2.consumed.trans h1.consumed

instance : IsTrans (Host σ) (Calm i) := ⟨fun _ _ _ => Calm.trans⟩

theorem Calm.dataAt {h h' : Host σ} (hc : Calm i h h') (p : Path) : h'.dataAt p = h.dataAt p := by
  by_cases hp : p = (h.sessions i).path
  · rw [hp, hc.file]
  · exact hc.files p hp

/-- Nothing was written, and the session holds what it held. -/
structure Ready (i : ℕ) (h h' : Host σ) : Prop extends Calm i h h' where
  same : SameCore (h.sessions i) (h'.sessions i)

theorem Ready.trans {a b c : Host σ} (h1 : Ready i a b) (h2 : Ready i b c) : Ready i a c :=
  ⟨h1.toCalm.trans h2.toCalm, h1.same.trans h2.same⟩

theorem Ready.refl (h : Host σ) : Ready i h h := ⟨Std.Refl.refl h, .refl _⟩

open Prog (Ends)

/-! ### Checks -/

/-- An error with a known outcome. -/
def Raised.Known (e : Raised) : Prop := e ≠ storageOutcomeUnknown

instance (e : Raised) : Decidable e.Known := inferInstanceAs (Decidable (e ≠ _))

theorem JsonLimit.raised_known (l : JsonLimit) : l.raised.Known := by
  cases l <;> decide

/-- The session was idle for too long and is locked. -/
structure Idled (i : ℕ) (h : Host σ) (e : Raised) (h' : Host σ) : Prop where
  error : e = walletLocked
  locked : (h'.sessions i).Locked
  silent : h.Tracked → h'.Silent i

/-- An error before anything was written: the session holds what it held, unless it was idle for too long. -/
structure Stopped (i : ℕ) (h : Host σ) (e : Raised) (h' : Host σ) : Prop extends Calm i h h' where
  known : e.Known
  held : SameCore (h.sessions i) (h'.sessions i) ∨ Idled i h e h'

theorem Stopped.refl (h : Host σ) {e : Raised} (he : e.Known) : Stopped i h e h := ⟨Std.Refl.refl h, he, .inl (.refl _)⟩

theorem Ready.stopped {a b c : Host σ} {e : Raised} (h1 : Ready i a b) (h2 : Stopped i b e c) : Stopped i a e c where
  toCalm := h1.toCalm.trans h2.toCalm
  known := h2.known
  held := h2.held.imp h1.same.trans fun hi => ⟨hi.error, hi.locked, fun ht => hi.silent (h1.tracked ht)⟩

section

variable {α β : Type}

/-- A program that writes nothing and keeps what the session holds. -/
def Checks (i : ℕ) (x : Proc σ α) : Prop :=
  ∀ h, Ends x h (fun _ h' => Ready i h h') (Stopped i h)

theorem Checks.pure (a : α) : Checks i (pure a : Proc σ α) := fun h => Ends.pure (Ready.refl h)

theorem Checks.raise {e : Raised} (he : e.Known) : Checks i (Prog.raise e : Proc σ α) :=
  fun h => Ends.raise (Stopped.refl h he)

theorem Checks.lift {x : Except Raised α} (hx : Fails Raised.Known x) : Checks i (Prog.lift x : Proc σ α) := fun h =>
  Ends.lift (fun _ _ => Ready.refl h) fun e he => Stopped.refl h (hx e he)

theorem Checks.reject {e : Raised} (he : e.Known) (c : Prop) [Decidable c] :
    Checks i (Prog.reject c e : Proc σ Unit) := Checks.lift (Fails.reject he c)

theorem Checks.bind {x : Proc σ α} {f : α → Proc σ β} (hx : Checks i x) (hf : ∀ a, Checks i (f a)) :
    Checks i (x >>= f) := fun h =>
  (hx h).bind fun a h1 h01 => (hf a h1).mono (fun _ _ h12 => h01.trans h12) fun _ _ h12 => h01.stopped h12

theorem Checks.ready {x : Proc σ α} (hx : Checks i x) {a : α} {h h' : Host σ} (hr : x h = (.ok a, h')) : Ready i h h' :=
  (hx h).ok hr

/-- A program that keeps the world so, and always returns. -/
theorem Checks.of_returns {x : Proc σ α} (hr : ∀ h, ∃ a h', x h = (.ok a, h') ∧ Ready i h h') :
    Checks i x := fun h => by
  obtain ⟨a, h', hx, hready⟩ := hr h
  constructor
  · intro b w hb
    cases hx.symm.trans hb
    exact hready
  · intro e w he
    cases hx.symm.trans he

end

/-! ### The parts -/

theorem ready_setState (h : Host σ) (s : σ) : Ready i h (h.setState s) where
  toBeside := ⟨fun _ _ => rfl, rfl, le_rfl, rfl, fun _ _ => rfl, rfl, id, fun _ _ h _ => h⟩
  file := rfl
  latches := rfl
  consumed := rfl
  same := .refl _

theorem ask_checks {α : Type} (f : σ → α × σ) : Checks i (ask f : Proc σ α) :=
  Checks.of_returns fun h => ⟨_, _, rfl, ready_setState h _⟩

theorem session_checks (j : ℕ) : Checks i (session j : Proc σ Session) :=
  Checks.of_returns fun h => ⟨_, h, rfl, Ready.refl h⟩

/-- A read on the adapter's side. -/
theorem net_checks {α : Type} {x : Net σ α} (hx : ∀ w, ∃ a, x w = (.ok a, w)) : Checks i (net x) :=
  Checks.of_returns fun h => by
    obtain ⟨a, ha⟩ := hx h.world
    exact ⟨a, h, by rw [net, ha]; rfl, Ready.refl h⟩

theorem isOwnerLatched_checks (a : ℕ) (n : Bytes) : Checks i (net (isOwnerLatched a n) : Proc σ Bool) :=
  net_checks fun _ => ⟨_, rfl⟩

theorem isLatched_checks (a : ℕ) (b : RotationBinding) : Checks i (net (isLatched a b) : Proc σ Bool) :=
  net_checks fun _ => ⟨_, rfl⟩

/-- A change of the session's last activity. -/
theorem ready_activity (h : Host σ) (t : ℤ) :
    Ready i h (h.setSession i { h.sessions i with lastActivity := t }) where
  files := fun _ _ => rfl
  log := rfl
  fresh := le_rfl
  nextSession := rfl
  others := fun j hj => Function.update_of_ne hj _ _
  path := by simp [Host.setSession]
  tracked := fun ht id s hs ha => by
    have := ht id s hs ha
    by_cases hw : s.wallet = i
    · rw [hw] at this
      simpa [Host.setSession, hw] using this
    · simpa [Host.setSession, hw] using this
  signers := fun _ _ hs _ => hs
  file := rfl
  latches := rfl
  consumed := rfl
  same := by simpa [Host.setSession] using ⟨rfl, rfl, rfl, rfl, rfl, rfl⟩

/-! ### Capabilities and the lock -/

theorem invalidate_signers (h : Host σ) (ids : List ℕ) {id : ℕ} {s : Signer}
    (hs : (h.invalidate ids).signers id = some s) (ha : s.active = true) : h.signers id = some s ∧ id ∉ ids := by
  simp only [Host.invalidate] at hs
  split_ifs at hs with hmem
  · obtain ⟨t, -, rfl⟩ := Option.map_eq_some_iff.1 hs
    simp [Signer.invalidated] at ha
  · exact ⟨hs, hmem⟩

/-- After all capabilities of a session are invalidated, forgetting them keeps the rest known. -/
theorem tracked_invalidate {h : Host σ} (ht : h.Tracked) (s : Session) :
    ((h.invalidate (h.sessions i).capabilities).setSession i s).Tracked := by
  intro id t hid ha
  obtain ⟨hbefore, hmem⟩ := invalidate_signers h _ hid ha
  have hknown := ht id t hbefore ha
  by_cases hw : t.wallet = i
  · rw [hw] at hknown
    exact absurd hknown hmem
  · simpa [Host.setSession, Host.invalidate, hw] using hknown

theorem silent_invalidate {h : Host σ} (ht : h.Tracked) (s : Session) :
    ((h.invalidate (h.sessions i).capabilities).setSession i s).Silent i := by
  intro id t hid ha hw
  obtain ⟨hbefore, hmem⟩ := invalidate_signers h _ hid ha
  have hknown := ht id t hbefore ha
  rw [hw] at hknown
  exact hmem hknown

theorem Beside.silent {h h' : Host σ} (hc : Beside i h h') (j : ℕ) (hs : h.Silent j) : h'.Silent j :=
  fun id s hid ha => hs id s (hc.signers id s hid ha) ha

/-- The capabilities are invalidated and the session is `s`, at the same path. -/
theorem beside_invalidate {h : Host σ} {s : Session} (hpath : s.path = (h.sessions i).path) :
    Beside i h ((h.invalidate (h.sessions i).capabilities).setSession i s) where
  files := fun _ _ => rfl
  log := rfl
  fresh := le_rfl
  nextSession := rfl
  others := fun j hj => Function.update_of_ne hj _ _
  path := by simpa [Host.setSession] using hpath
  tracked := fun ht => tracked_invalidate ht _
  signers := fun id s hs ha => (invalidate_signers h _ hs ha).1

theorem ready_invalidate (h : Host σ) : Ready i h
    ((h.invalidate (h.sessions i).capabilities).setSession i { h.sessions i with capabilities := [] }) where
  toBeside := beside_invalidate rfl
  file := rfl
  latches := rfl
  consumed := rfl
  same := by simpa [Host.setSession] using ⟨rfl, rfl, rfl, rfl, rfl, rfl⟩

theorem invalidateCapabilities_checks : Checks i (invalidateCapabilities i : Proc σ Unit) :=
  Checks.of_returns fun h => ⟨(), _, rfl, ready_invalidate h⟩

theorem silent_of_invalidateCapabilities {h h' : Host σ} {u : Unit} (ht : h.Tracked)
    (hr : invalidateCapabilities i h = (.ok u, h')) : h'.Silent i := by
  cases hr
  exact silent_invalidate ht _

theorem locked_locked (s : Session) : s.locked.Locked := ⟨rfl, rfl, rfl, rfl, rfl⟩

theorem lock_run (h : Host σ) : (lock i : Proc σ Unit) h =
    (.ok (), (h.invalidate (h.sessions i).capabilities).setSession i (h.sessions i).locked) := rfl

theorem beside_lock (h : Host σ) :
    Beside i h ((h.invalidate (h.sessions i).capabilities).setSession i (h.sessions i).locked) :=
  beside_invalidate rfl

theorem stopped_lock (h : Host σ) :
    Stopped i h walletLocked ((h.invalidate (h.sessions i).capabilities).setSession i (h.sessions i).locked) where
  toBeside := beside_lock h
  file := rfl
  latches := rfl
  consumed := rfl
  known := by decide
  held := .inr ⟨rfl, by simpa [Host.setSession] using locked_locked _, fun ht => silent_invalidate ht _⟩

/-! ### Activity -/

theorem checkInactivity_ends (h : Host σ) : Ends (checkInactivity M i) h
    (fun b h' => if b then Stopped i h walletLocked h' else Ready i h h') fun _ _ => False := by
  unfold checkInactivity
  refine Ends.bind_run rfl (.ite (fun _ => .pure ?_) fun _ => ?_)
  · simpa using Stopped.refl h (by decide)
  refine Ends.bind_run rfl (.ite (fun _ => ?_) fun _ => ?_)
  · exact Ends.bind_run (lock_run _) (.pure (by simpa using (ready_setState h _).stopped (stopped_lock _)))
  · exact .pure (by simpa using ready_setState h _)

theorem touch_ends (h : Host σ) : Ends (touch M i) h (fun _ h' => Ready i h h' ∧ (h.sessions i).dek ≠ none)
    (Stopped i h) := by
  unfold touch
  have hunlocked : Ends (requireUnlocked i) h (fun _ h' => h = h' ∧ (h.sessions i).dek ≠ none) (Stopped i h) :=
    Ends.bind_run rfl (.reject (fun hdek => ⟨rfl, hdek⟩) fun _ => Stopped.refl h (by decide))
  refine hunlocked.bind ?_
  rintro _ _ ⟨rfl, hdek⟩
  refine ((checkInactivity_ends h).mono (fun _ _ hq => hq) fun _ _ hf => hf.elim).bind fun b h1 h01 => ?_
  refine Ends.bind (Q := fun _ h2 => h1 = h2 ∧ Ready i h h1) (.reject (fun hb => ⟨rfl, ?_⟩) fun hb => ?_) ?_
  · simpa [hb] using h01
  · simpa [hb] using h01
  rintro _ _ ⟨rfl, hready⟩
  refine Ends.bind_run rfl (Ends.bind_run rfl (.modify ⟨?_, hdek⟩))
  exact (hready.trans (ready_setState h1 _)).trans (ready_activity (h1.setState (M.monotonic h1.world.state).2) _)

theorem touch_checks : Checks i (touch M i) := fun h => (touch_ends h).mono (fun _ _ hq => hq.1) fun _ _ hf => hf

/-- An operation on a locked session. -/
theorem touch_locked {α : Type} {h : Host σ} (hlocked : (h.sessions i).dek = none) (f : Unit → Proc σ α) :
    (touch M i >>= f) h = (.error walletLocked, h) := by
  simp [touch, requireUnlocked, session, Prog.bind_run, Prog.reject, reject, hlocked]

/-! ### Programs that only read -/

theorem ensure_checks : Checks i (ensureRotationDispatchNotLatched i : Proc σ Unit) :=
  (session_checks i).bind fun _ => Checks.reject (by decide) _

theorem publicKeyForSecret_fails (seed : Option Bytes) (v : PayloadValue) :
    Fails Known (publicKeyForSecret C seed v) := Fails.orRaise (by decide) _

theorem make_fails {p : Raised → Prop} (hp : p invalidContainer) (b : RotationBinding) :
    Fails p (RotationDispatchIntent.make b) := by
  unfold RotationDispatchIntent.make
  split_ifs
  · exact Fails.ok _
  · exact Fails.error hp

theorem fromPayload_fails {p : Raised → Prop} (hp : p invalidContainer) (v : PayloadValue) :
    Fails p (RotationDispatchIntent.fromPayload v) := (Fails.orRaise hp _).bind fun _ => make_fails hp _

theorem intentOf_fails (p : Payload) : Fails Known (intentOf p) :=
  Fails.ite ((fromPayload_fails (by decide) _).map _) (Fails.ok _)

theorem pendingKeyOf_fails (s : Session) : Fails Known (pendingKeyOf C s) :=
  Fails.ite ((Fails.reject (by decide) _).bind fun _ => Fails.ok _) ((publicKeyForSecret_fails _ _).map _)

theorem walletPublicKey_checks : Checks i (walletPublicKey C M i) :=
  touch_checks.bind fun _ => (session_checks i).bind fun _ => Checks.lift (publicKeyForSecret_fails _ _)

theorem dispatchIntent_checks : Checks i (signingKeyRotationDispatchIntent M i) :=
  touch_checks.bind fun _ => (session_checks i).bind fun _ => Checks.lift (intentOf_fails _)

theorem pendingSigningPublicKey_checks : Checks i (pendingSigningPublicKey C M i) :=
  touch_checks.bind fun _ => (session_checks i).bind fun _ => Checks.lift (pendingKeyOf_fails _)

theorem generateSeed_checks : Checks i (generateSeed M) := by
  refine (ask_checks _).bind fun r => ?_
  cases r with
  | none => exact Checks.raise (by decide)
  | some s => exact Checks.pure _

theorem stageSuccessor_checks (s : Session) : Checks i (stageSuccessor C M s) :=
  (Checks.lift (Fails.orRaise (by decide) _)).bind fun _ => (Checks.lift (Fails.orRaise (by decide) _)).bind fun _ =>
    generateSeed_checks.bind fun _ => (Checks.lift (Fails.orRaise (by decide) _)).bind fun _ =>
      (Checks.reject (by decide) _).bind fun _ => Checks.pure _

theorem rotationKeys_fails (s : Session) : Fails Known (rotationKeys C s) :=
  (publicKeyForSecret_fails _ _).bind fun _ => (publicKeyForSecret_fails _ _).bind fun _ => Fails.ok _

theorem provePending_checks (draft : IdentityDraft P) : Checks i (provePendingSigningKeyRotation P C M i draft) :=
  touch_checks.bind fun _ => ensure_checks.bind fun _ => (session_checks i).bind fun _ =>
    (Checks.lift (rotationKeys_fails _)).bind fun _ => (Checks.lift (Fails.mapError (by decide) _)).bind fun _ =>
      Checks.lift ((Fails.orRaise (by decide) _).bind fun _ => (Fails.orRaise (by decide) _).bind fun _ =>
        Fails.reject (by decide) _)

theorem latchKeys_checks : Checks i (latchKeys C M i) :=
  walletPublicKey_checks.bind fun _ => pendingSigningPublicKey_checks.bind fun _ =>
    (Checks.lift (Fails.orRaise (by decide) _)).bind fun _ => Checks.pure _

theorem latchIntent_checks (b : IdentityBundle P) (p : RotationPublication P) : Checks i (latchIntent P C M i b p) :=
  (Checks.lift (Fails.mapError (by decide) _)).bind fun _ => (ask_checks _).bind fun _ =>
    (Checks.reject (by decide) _).bind fun _ => (Checks.lift (Fails.orRaise (by decide) _)).bind fun _ =>
      (Checks.reject (by decide) _).bind fun _ => (provePending_checks _).bind fun _ => latchKeys_checks.bind fun _ =>
        Checks.lift (make_fails (by decide) _)

theorem latchedIntent_fails (s : Session) : Fails Known (latchedIntent s) :=
  (Fails.reject (by decide) _).bind fun _ => fromPayload_fails (by decide) _

theorem checkLatchedKeys_fails (s : Session) (intent : RotationDispatchIntent) :
    Fails Known (checkLatchedKeys C s intent) :=
  (Fails.reject (by decide) _).bind fun _ => (rotationKeys_fails s).bind fun _ => Fails.ok _

theorem bindBegin_checks (environment : Str) : Checks i (bindBegin M i environment) :=
  touch_checks.bind fun _ => dispatchIntent_checks.bind fun _ =>
    (Checks.lift (Fails.orRaise (by decide) _)).bind fun _ => (Checks.reject (by decide) _).bind fun _ => Checks.pure _

end DecentWallet
