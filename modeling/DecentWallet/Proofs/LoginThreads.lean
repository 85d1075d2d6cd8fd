import DecentWallet.Sanity.KotlinWallet
import DecentWallet.Spec.KotlinLoginRun

/-! Login proofs under concurrency. A call that has reserved its challenge holds it until it fails, and a call that has
returned a proof holds it for good: the challenge stays in the session's set until the session is locked, and a locked
session reserves nothing. So no two calls hold one challenge. -/

namespace DecentWallet.Kotlin

open WalletError

variable {σ : Type} {A : Android σ} {C : Primitives} {i : ℕ}

/-! ### The text that is signed -/

theorem objectText_signedFields (challenge identityId : Str) : objectText (signedFields challenge identityId) =
    123 :: (quote (str "challenge") ++ 58 :: (quote challenge ++ 44 :: (quote (str "identity_id") ++ 58 ::
      (quote identityId ++ Json.textMembers [(str "profile", .str loginProfile)])))) := rfl

/-- A quoted text ends where its closing quote is, whatever follows. -/
theorem quote_append_cancel {s s' r r' : Str} (h : quote s ++ r = quote s' ++ r') : s = s' ∧ r = r' := by
  obtain rfl := Json.quote_append_inj h
  exact ⟨rfl, List.append_cancel_left h⟩

theorem signingBytes_injective {challenge identityId challenge' identityId' : Str} {b : Bytes}
    (h : signingBytes loginProfile challenge identityId = .ok b)
    (h' : signingBytes loginProfile challenge' identityId' = .ok b) : challenge = challenge' ∧
    identityId = identityId' := by
  have htext : ∀ {c id : Str}, signingBytes loginProfile c id = .ok b →
      utf8 (objectText (signedFields c id)) = some b := by
    intro c id h
    obtain ⟨⟨hc, hid⟩, -, rfl⟩ := signingBytes_eq_ok.1 h
    exact utf8_objectText (by simp only [signedFields, List.forall_mem_cons, ScalarField, scalar_names, hc, hid,
      List.not_mem_nil, false_imp_iff, implies_true, and_self])
  have heq := (utf8Decode_utf8 (htext h)).symm.trans (utf8Decode_utf8 (htext h'))
  rw [Option.some.injEq, objectText_signedFields, objectText_signedFields, List.cons.injEq] at heq
  obtain ⟨-, heq⟩ := quote_append_cancel heq.2
  obtain ⟨hc, heq⟩ := quote_append_cancel (List.cons.inj heq).2
  obtain ⟨-, heq⟩ := quote_append_cancel (List.cons.inj heq).2
  exact ⟨hc, (quote_append_cancel (List.cons.inj heq).2).1⟩

/-! ### The parts of a call -/

theorem loginChallengeKey_ok {challenge identityId key : Str} {expiresAt : ℤ} {p p' : Phone σ}
    (h : loginChallengeKey A challenge identityId expiresAt p = (.ok key, p')) : key = challenge := by
  unfold loginChallengeKey at h
  obtain ⟨_, _, -, h⟩ := Prog.bind_ok_iff.1 h
  obtain ⟨_, _, -, h⟩ := Prog.bind_ok_iff.1 h
  obtain ⟨bytes, _, hbytes, h⟩ := Prog.bind_ok_iff.1 h
  obtain ⟨_, _, -, h⟩ := Prog.bind_ok_iff.1 h
  obtain ⟨rfl, -⟩ := Prog.pure_ok_iff.1 h
  exact ((parseBase64Url_eq_ok (by decide)).1 (Prog.lift_ok_iff.1 hbytes).1).2

theorem reserveChallengeKey_cases {key : Str} {p p' : Phone σ} {r : Parse Unit}
    (h : reserveChallengeKey i key p = (r, p')) :
    (∃ e, r = .error e ∧ p' = p) ∨
      r = .ok () ∧ (p.sessions i).unlocked.isSome = true ∧ key ∉ (p.sessions i).activeWalletLoginChallenges ∧
        p' = p.setSession i { p.sessions i with
          activeWalletLoginChallenges := key :: (p.sessions i).activeWalletLoginChallenges } := by
  unfold reserveChallengeKey ensureUnlocked at h
  simp only [Prog.bind_run, session, Prog.lift_run] at h
  rcases hu : (p.sessions i).unlocked with _ | ⟨raw, dek, payload⟩
  · simp only [hu, orRaise, Prod.mk.injEq] at h
    exact .inl ⟨_, h.1.symm, h.2.symm⟩
  · simp only [hu, orRaise, Prog.pure_run, Prog.reject, Prog.lift_run, reject] at h
    by_cases hrot : (p.sessions i).rotating = true
    · simp only [hrot, if_true, Prod.mk.injEq] at h
      exact .inl ⟨_, h.1.symm, h.2.symm⟩
    · by_cases hmem : key ∈ (p.sessions i).activeWalletLoginChallenges
      · simp only [hrot, hmem, Bool.false_eq_true, if_true, if_false, Prod.mk.injEq] at h
        exact .inl ⟨_, h.1.symm, h.2.symm⟩
      · simp only [hrot, hmem, Bool.false_eq_true, if_false] at h
        cases h
        exact .inr ⟨rfl, rfl, hmem, rfl⟩

/-- Session `i` may sign a request that expires at `expiresAt`, by the clock as it stands. -/
def Signable (A : Android σ) (i : ℕ) (expiresAt : ℤ) (p : Phone σ) : Prop :=
  (p.sessions i).unlocked.isSome = true ∧ (p.sessions i).rotating = false ∧
    (A.currentTimeMillis p.state).1.tdiv 1000 < expiresAt

/-- The block under the lock leaves every session as it was, and signs only on an unlocked session that is not
rotating, before the request expires by the clock it has just read. -/
theorem signUnderLock_effect {challenge identityId : Str} {expiresAt : ℤ} {p p' : Phone σ}
    {r : Parse WalletLoginProofRequest} (h : signUnderLock A i challenge identityId expiresAt p = (r, p')) :
    p'.sessions = p.sessions ∧ (p'.signed = p.signed ∨ Signable A i expiresAt p) := by
  unfold signUnderLock ensureUnlocked at h
  simp only [Prog.bind_run, session, Prog.lift_run, Prog.reject] at h
  rcases hu : (p.sessions i).unlocked with _ | ⟨raw, dek, payload⟩
  · simp only [hu, orRaise, Prod.mk.injEq] at h
    simp [← h.2]
  by_cases hrot : (p.sessions i).rotating = true
  · simp only [hu, orRaise, Prog.pure_run, hrot, reject, if_true, Prod.mk.injEq] at h
    simp [← h.2]
  by_cases htime : expiresAt ≤ (A.currentTimeMillis p.state).1.tdiv 1000
  · simp only [hu, orRaise, Prog.pure_run, hrot, Bool.false_eq_true, reject, nowSeconds, consult, Prog.bind_run, htime,
      if_true, if_false, Prod.mk.injEq] at h
    simp [← h.2]
  · simp only [hu, orRaise, Prog.pure_run, hrot, Bool.false_eq_true, reject, nowSeconds, consult, Prog.bind_run, htime,
      if_false] at h
    have hsame : SameSessions _ p' := (signLoginProof_same A i _ _ _).of_run h
    exact ⟨hsame, .inr ⟨by simp [hu], by simpa using hrot, by omega⟩⟩

/-! ### Which call holds a challenge -/

/-- The local variable `challengeKey`. -/
def LoginStage.challengeKey : LoginStage → Option Str
  | checked key => some key
  | asking key => some key
  | approved key => some key
  | failing key _ => some key
  | ended _ => none

/-- The challenge that is taken as long as the call stands here. -/
def LoginStage.held : LoginStage → Option Str
  | checked _ => none
  | asking key => some key
  | approved key => some key
  | failing key _ => some key
  | ended (.ok proof) => some proof.challenge
  | ended (.error _) => none

def Desk.held (d : Desk σ) (n : ℕ) : Option Str := (d.calls n).bind fun c => c.stage.held

theorem Desk.held_put (d : Desk σ) (n m : ℕ) (request : LoginRequest) (stage : LoginStage) (p : Phone σ) :
    (d.put n request stage p).held m = if m = n then stage.held else d.held m := by
  unfold held put
  split_ifs with h
  · subst h
    simp
  · simp [Function.update_of_ne h]

structure Desk.Sound (i : ℕ) (d : Desk σ) : Prop where
  key : ∀ n c k, d.calls n = some c → c.stage.challengeKey = some k → k = c.request.challenge
  unique : ∀ n m k, d.held n = some k → d.held m = some k → n = m
  kept : ∀ n k, d.held n = some k → (d.phone.sessions i).unlocked.isSome = true →
    k ∈ (d.phone.sessions i).activeWalletLoginChallenges

theorem Desk.key_put {d : Desk σ} {n : ℕ} {request : LoginRequest} {stage : LoginStage} {p : Phone σ}
    (h : ∀ n c k, d.calls n = some c → c.stage.challengeKey = some k → k = c.request.challenge)
    (hstage : ∀ k, stage.challengeKey = some k → k = request.challenge) :
    ∀ m c k, (d.put n request stage p).calls m = some c → c.stage.challengeKey = some k → k = c.request.challenge := by
  intro m c k hc hk
  by_cases hm : m = n
  · subst hm
    simp only [Desk.put, Function.update_self, Option.some.injEq] at hc
    subst hc
    exact hstage k hk
  · simp only [Desk.put, Function.update_of_ne hm] at hc
    exact h m c k hc hk

/-- A step that takes no challenge and gives none back. -/
theorem Desk.Sound.put {d : Desk σ} (h : d.Sound i) {n : ℕ} {request : LoginRequest} {stage : LoginStage} {p : Phone σ}
    (hheld : stage.held = d.held n) (hkey : ∀ k, stage.challengeKey = some k → k = request.challenge)
    (hp : (p.sessions i).unlocked.isSome = true → (d.phone.sessions i).unlocked.isSome = true ∧
      (p.sessions i).activeWalletLoginChallenges = (d.phone.sessions i).activeWalletLoginChallenges) :
    (d.put n request stage p).Sound i := by
  have hsame : ∀ m, (d.put n request stage p).held m = d.held m := by
    intro m
    rw [held_put]
    split_ifs with hm
    · rw [hm, hheld]
    · rfl
  refine ⟨key_put h.key hkey, fun m m' k hm hm' => ?_, fun m k hm hu => ?_⟩
  · rw [hsame] at hm hm'
    exact h.unique m m' k hm hm'
  · rw [hsame] at hm
    obtain ⟨hu, hc⟩ := hp hu
    exact hc ▸ h.kept m k hm hu

/-- The challenge was free, so nobody held it. -/
theorem Desk.Sound.reserve {d : Desk σ} (h : d.Sound i) {n : ℕ} {request : LoginRequest} {key : Str}
    (hkey : key = request.challenge) (hu : (d.phone.sessions i).unlocked.isSome = true)
    (hfree : key ∉ (d.phone.sessions i).activeWalletLoginChallenges) :
    (d.put n request (.asking key) (d.phone.setSession i { d.phone.sessions i with
      activeWalletLoginChallenges := key :: (d.phone.sessions i).activeWalletLoginChallenges })).Sound i := by
  have hnobody : ∀ m, d.held m ≠ some key := fun m hm => hfree (h.kept m key hm hu)
  refine ⟨key_put h.key fun k hk => ?_, fun m m' k hm hm' => ?_, fun m k hm _ => ?_⟩
  · cases hk
    exact hkey
  · rw [held_put] at hm hm'
    split_ifs at hm hm' with h1 h2 h2
    · rw [h1, h2]
    · cases hm
      exact absurd hm' (hnobody m')
    · cases hm'
      exact absurd hm (hnobody m)
    · exact h.unique m m' k hm hm'
  · rw [held_put] at hm
    simp only [Desk.put, Phone.setSession, Function.update_self]
    split_ifs at hm
    · cases hm
      exact List.mem_cons_self
    · exact List.mem_cons_of_mem _ (h.kept m k hm hu)

/-- The challenge that is given back is nobody else's. -/
theorem Desk.Sound.release {d : Desk σ} (h : d.Sound i) {n : ℕ} {request : LoginRequest} {key : Str} {e : WalletError}
    (hheld : d.held n = some key) :
    (d.put n request (.ended (.error e)) (releaseChallengeKey i key d.phone).2).Sound i := by
  have hothers : ∀ m k, (d.put n request (.ended (.error e)) (releaseChallengeKey i key d.phone).2).held m = some k →
      d.held m = some k ∧ k ≠ key := by
    intro m k hm
    rw [held_put] at hm
    split_ifs at hm with hmn
    · cases hm
    · refine ⟨hm, ?_⟩
      rintro rfl
      exact hmn (h.unique m n k hm hheld)
  refine ⟨key_put h.key fun k hk => ?_, fun m m' k hm hm' => ?_, fun m k hm hu => ?_⟩
  · cases hk
  · exact h.unique m m' k (hothers m k hm).1 (hothers m' k hm').1
  · obtain ⟨hm, hne⟩ := hothers m k hm
    simp only [Desk.put, releaseChallengeKey, session, putSession, Prog.bind_run, Prog.modify_run, Phone.setSession,
      Function.update_self] at hu ⊢
    exact List.mem_filter.2 ⟨h.kept m k hm hu, by simpa using hne⟩

/-! ### Runs -/

/-- What holds along a run: every call that was approved had consent for its own identity, and the call of a proof that
was returned is over. -/
structure LoginInvariant (i : ℕ) (past : List (LoginEntry σ)) (d : Desk σ) : Prop where
  sound : d.Sound i
  approved : ∀ n request key, d.calls n = some ⟨request, .approved key⟩ →
    ∃ e ∈ past, e.result = .consented n loginProfile request.identityId true
  ended : ∀ e ∈ past, ∀ n proof, e.result = .returned n proof →
    ∃ request, d.calls n = some ⟨request, .ended (.ok proof)⟩

namespace LoginInvariant

variable {past : List (LoginEntry σ)} {d d' : Desk σ} {a : LoginAction} {ev : LoginEvent}

theorem extend (h : LoginInvariant i past d) (hs : d'.Sound i)
    (happroved : ∀ n request key, d'.calls n = some ⟨request, .approved key⟩ →
      d.calls n = some ⟨request, .approved key⟩ ∨ ev = .consented n loginProfile request.identityId true)
    (hended : ∀ n request proof, d.calls n = some ⟨request, .ended (.ok proof)⟩ →
      d'.calls n = some ⟨request, .ended (.ok proof)⟩)
    (hreturned : ∀ n proof, ev = .returned n proof → ∃ request, d'.calls n = some ⟨request, .ended (.ok proof)⟩) :
    LoginInvariant i (past ++ [⟨d, a, ev, d'⟩]) d' := by
  refine ⟨hs, fun n request key hn => ?_, fun e he n proof hev => ?_⟩
  · rcases happroved n request key hn with hn | hev
    · obtain ⟨e, he, hev⟩ := h.approved n request key hn
      exact ⟨e, List.mem_append_left _ he, hev⟩
    · exact ⟨⟨d, a, ev, d'⟩, by simp, hev⟩
  · rcases List.mem_append.1 he with he | he
    · obtain ⟨request, hn⟩ := h.ended e he n proof hev
      exact ⟨request, hended n request proof hn⟩
    · obtain rfl := List.mem_singleton.1 he
      exact hreturned n proof hev

/-- A step of call `n`. -/
theorem put (h : LoginInvariant i past d) {n : ℕ} {request : LoginRequest} {stage : LoginStage} {p : Phone σ}
    (hs : (d.put n request stage p).Sound i) (hlive : ∀ request proof, d.calls n ≠ some ⟨request, .ended (.ok proof)⟩)
    (happroved : ∀ key, stage = .approved key → ev = .consented n loginProfile request.identityId true)
    (hreturned : ∀ m proof, ev = .returned m proof → m = n ∧ stage = .ended (.ok proof)) :
    LoginInvariant i (past ++ [⟨d, a, ev, d.put n request stage p⟩]) (d.put n request stage p) := by
  refine h.extend hs (fun m request' key hm => ?_) (fun m request' proof hm => ?_) fun m proof hev => ?_
  · by_cases hmn : m = n
    · subst hmn
      simp only [Desk.put, Function.update_self, Option.some.injEq, LoginCall.mk.injEq] at hm
      obtain ⟨rfl, hstage⟩ := hm
      exact .inr (happroved key hstage)
    · simp only [Desk.put, Function.update_of_ne hmn] at hm
      exact .inl hm
  · by_cases hmn : m = n
    · subst hmn
      exact absurd hm (hlive request' proof)
    · simpa only [Desk.put, Function.update_of_ne hmn] using hm
  · obtain ⟨rfl, rfl⟩ := hreturned m proof hev
    exact ⟨request, by simp [Desk.put]⟩

/-- A step that is no step of a call. -/
theorem phone (h : LoginInvariant i past d) {p : Phone σ} (hp : Quiet i d.phone p) :
    LoginInvariant i (past ++ [⟨d, a, .silent, { d with phone := p }⟩]) { d with phone := p } := by
  refine h.extend ⟨h.sound.key, h.sound.unique, fun n k hn hu => ?_⟩ (fun n request key hn => .inl hn)
    (fun n request proof hn => hn) nofun
  obtain ⟨hu, hc⟩ := hp.session hu
  exact hc ▸ h.sound.kept n k hn hu

end LoginInvariant

theorem LoginEvent.ofStage_returned {n m : ℕ} {stage : LoginStage} {proof : WalletLoginProofRequest}
    (h : LoginEvent.ofStage n stage = .returned m proof) : m = n ∧ stage = .ended (.ok proof) := by
  unfold ofStage at h
  split at h
  · cases h
    exact ⟨rfl, rfl⟩
  · cases h
  · cases h

namespace LoginInvariant

variable {past : List (LoginEntry σ)} {d d' : Desk σ} {ev : LoginEvent}

theorem stay {a : LoginAction} (h : LoginInvariant i past d) : LoginInvariant i (past ++ [⟨d, a, .silent, d⟩]) d :=
  h.phone (Std.Refl.refl _)

theorem step_call {n : ℕ} {request : LoginRequest} (h : LoginInvariant i past d)
    (hrun : LoginAction.run A C i (.call n request) d = (ev, d')) :
    LoginInvariant i (past ++ [⟨d, .call n request, ev, d'⟩]) d' := by
  rcases hc : d.calls n with _ | c
  · rcases hk : loginChallengeKey A request.challenge request.identityId request.expiresAtEpochSeconds d.phone
      with ⟨r, p⟩
    simp only [LoginAction.run, hc, hk, Prod.mk.injEq] at hrun
    obtain ⟨rfl, rfl⟩ := hrun
    have hquiet : Quiet i d.phone p := (loginChallengeKey_quiet A i _ _ _).of_run hk
    have hheld : d.held n = none := by rw [Desk.held, hc]; rfl
    refine h.put (h.sound.put ?_ (fun k hstage => ?_) hquiet.session) (by simp [hc]) (fun key hstage => ?_)
      fun m proof => LoginEvent.ofStage_returned
    · rw [hheld]
      cases r <;> rfl
    · cases r with
      | error e => cases hstage
      | ok key =>
        cases hstage
        exact loginChallengeKey_ok hk
    · cases r <;> cases hstage
  · simp only [LoginAction.run, hc, Prod.mk.injEq] at hrun
    obtain ⟨rfl, rfl⟩ := hrun
    exact h.stay

theorem step_reserve {n : ℕ} (h : LoginInvariant i past d)
    (hrun : LoginAction.run A C i (.reserve n) d = (ev, d')) :
    LoginInvariant i (past ++ [⟨d, .reserve n, ev, d'⟩]) d' := by
  simp only [LoginAction.run] at hrun
  split at hrun
  · rename_i request key hc
    have hkey := h.sound.key n _ key hc rfl
    have hheld : d.held n = none := by rw [Desk.held, hc]; rfl
    rcases hr : reserveChallengeKey i key d.phone with ⟨r, p⟩
    simp only [hr, Prod.mk.injEq] at hrun
    obtain ⟨rfl, rfl⟩ := hrun
    refine h.put ?_ (by simp [hc]) (fun k hstage => ?_) fun m proof => LoginEvent.ofStage_returned
    · rcases reserveChallengeKey_cases hr with ⟨e, rfl, rfl⟩ | ⟨rfl, hu, hfree, rfl⟩
      · exact h.sound.put hheld.symm nofun fun hu => ⟨hu, rfl⟩
      · exact h.sound.reserve hkey hu hfree
    · cases r <;> cases hstage
  · cases hrun
    exact h.stay

theorem step_answer {n : ℕ} {reply : Option Bool} (h : LoginInvariant i past d)
    (hrun : LoginAction.run A C i (.answer n reply) d = (ev, d')) :
    LoginInvariant i (past ++ [⟨d, .answer n reply, ev, d'⟩]) d' := by
  simp only [LoginAction.run] at hrun
  split at hrun
  · rename_i request key hc
    have hkey := h.sound.key n _ key hc rfl
    have hheld : d.held n = some key := by rw [Desk.held, hc]; rfl
    cases hrun
    refine h.put (h.sound.put ?_ (fun k hstage => ?_) fun hu => ⟨hu, rfl⟩) (by simp [hc]) (fun k hstage => ?_) nofun
    · rw [hheld]
      cases reply.getD false <;> rfl
    · cases hreply : reply.getD false <;> rw [hreply] at hstage <;> cases hstage <;> exact hkey
    · cases hreply : reply.getD false
      · rw [hreply] at hstage
        cases hstage
      · rfl
  · cases hrun
    exact h.stay

theorem step_sign {n : ℕ} (h : LoginInvariant i past d)
    (hrun : LoginAction.run A C i (.sign n) d = (ev, d')) : LoginInvariant i (past ++ [⟨d, .sign n, ev, d'⟩]) d' := by
  simp only [LoginAction.run] at hrun
  split at hrun
  · rename_i request key hc
    have hkey := h.sound.key n _ key hc rfl
    have hheld : d.held n = some key := by rw [Desk.held, hc]; rfl
    rcases hr : signUnderLock A i request.challenge request.identityId request.expiresAtEpochSeconds d.phone with ⟨r, p⟩
    simp only [hr, Prod.mk.injEq] at hrun
    obtain ⟨rfl, rfl⟩ := hrun
    have hsessions := (signUnderLock_effect hr).1
    refine h.put (h.sound.put ?_ (fun k hstage => ?_) fun hu => ?_) (by simp [hc]) (fun k hstage => ?_) fun m proof =>
      LoginEvent.ofStage_returned
    · rw [hheld]
      cases r with
      | error e => rfl
      | ok proof =>
        obtain ⟨-, hc, -⟩ := signUnderLock_ok hr
        rw [hkey, ← hc]
        rfl
    · cases r with
      | error e =>
        cases hstage
        exact hkey
      | ok proof => cases hstage
    · rw [hsessions] at hu ⊢
      exact ⟨hu, rfl⟩
    · cases r <;> cases hstage
  · cases hrun
    exact h.stay

theorem step_release {n : ℕ} (h : LoginInvariant i past d)
    (hrun : LoginAction.run A C i (.release n) d = (ev, d')) :
    LoginInvariant i (past ++ [⟨d, .release n, ev, d'⟩]) d' := by
  simp only [LoginAction.run] at hrun
  split at hrun
  · rename_i request key e hc
    have hheld : d.held n = some key := by rw [Desk.held, hc]; rfl
    cases hrun
    exact h.put (h.sound.release hheld) (by simp [hc]) nofun nofun
  · cases hrun
    exact h.stay

theorem step {a : LoginAction} (h : LoginInvariant i past d) (hrun : a.run A C i d = (ev, d')) :
    LoginInvariant i (past ++ [⟨d, a, ev, d'⟩]) d' := by
  cases a with
  | call n request => exact h.step_call hrun
  | reserve n => exact h.step_reserve hrun
  | answer n reply => exact h.step_answer hrun
  | sign n => exact h.step_sign hrun
  | release n => exact h.step_release hrun
  | operation j op =>
    cases hrun
    exact h.phone (SessionOp.run_quiet A C i j op d.phone)

end LoginInvariant

theorem LoginRun.invariant {d₀ d : Desk σ} {steps : List (LoginEntry σ)} (h : LoginRun A C i d₀ steps d) :
    LoginInvariant i steps d := by
  obtain ⟨hnone, htrace⟩ := h
  have hheld : ∀ n, d₀.held n = none := fun n => by rw [Desk.held, hnone]; rfl
  refine htrace.keeps (I := LoginInvariant i) ⟨⟨?_, ?_, ?_⟩, ?_, ?_⟩
    fun past s a r s' hinv _ hrun => hinv.step hrun
  · intro n c k hc
    rw [hnone] at hc
    cases hc
  · intro n m k hn
    rw [hheld] at hn
    cases hn
  · intro n k hn
    rw [hheld] at hn
    cases hn
  · intro n request key hn
    rw [hnone] at hn
    cases hn
  · intro e he
    cases he

/-! ### Results -/

/-- A proof is returned by the step that signs for a call with consent, and is for the request of that call. -/
theorem LoginAction.run_returned {a : LoginAction} {d d' : Desk σ} {n : ℕ} {proof : WalletLoginProofRequest}
    (h : a.run A C i d = (.returned n proof, d')) : ∃ request key, d.calls n = some ⟨request, .approved key⟩ ∧
      proof.challenge = request.challenge ∧ proof.identityId = request.identityId := by
  cases a with
  | call m request =>
    rcases hc : d.calls m with _ | c <;> simp only [LoginAction.run, hc] at h
    · rcases hk : loginChallengeKey A request.challenge request.identityId request.expiresAtEpochSeconds
        d.phone with ⟨r, p⟩
      simp only [hk, Prod.mk.injEq] at h
      obtain ⟨-, hstage⟩ := LoginEvent.ofStage_returned h.1
      cases r <;> cases hstage
    · cases h
  | reserve m =>
    simp only [LoginAction.run] at h
    split at h
    · rename_i request key hc
      rcases hr : reserveChallengeKey i key d.phone with ⟨r, p⟩
      simp only [hr, Prod.mk.injEq] at h
      obtain ⟨-, hstage⟩ := LoginEvent.ofStage_returned h.1
      cases r <;> cases hstage
    · cases h
  | answer m reply =>
    simp only [LoginAction.run] at h
    split at h <;> cases h
  | sign m =>
    simp only [LoginAction.run] at h
    split at h
    · rename_i request key hc
      rcases hr : signUnderLock A i request.challenge request.identityId request.expiresAtEpochSeconds d.phone
        with ⟨r, p⟩
      simp only [hr, Prod.mk.injEq] at h
      obtain ⟨rfl, hstage⟩ := LoginEvent.ofStage_returned h.1
      cases r with
      | error e => cases hstage
      | ok proof' =>
        cases hstage
        obtain ⟨-, hchallenge, hid, -⟩ := signUnderLock_ok hr
        exact ⟨request, key, hc, hchallenge, hid⟩
    · cases h
  | release m =>
    simp only [LoginAction.run] at h
    split at h <;> cases h
  | operation j op => cases h

theorem LoginAction.run_signed {a : LoginAction} {d d' : Desk σ} {ev : LoginEvent} (h : a.run A C i d = (ev, d')) :
    d'.phone.signed = d.phone.signed ∨ ∃ n request key, a = .sign n ∧ d.calls n = some ⟨request, .approved key⟩ ∧
      Signable A i request.expiresAtEpochSeconds d.phone := by
  cases a with
  | call n request =>
    rcases hc : d.calls n with _ | c <;> simp only [LoginAction.run, hc] at h
    · rcases hk : loginChallengeKey A request.challenge request.identityId request.expiresAtEpochSeconds
        d.phone with ⟨r, p⟩
      simp only [hk] at h
      cases h
      exact .inl ((loginChallengeKey_quiet A i _ _ _).of_run hk).signed
    · cases h
      exact .inl rfl
  | reserve n =>
    simp only [LoginAction.run] at h
    split at h
    · rename_i request key hc
      rcases hr : reserveChallengeKey i key d.phone with ⟨r, p⟩
      simp only [hr] at h
      cases h
      rcases reserveChallengeKey_cases hr with ⟨e, -, rfl⟩ | ⟨-, -, -, rfl⟩
      · exact .inl rfl
      · exact .inl rfl
    · cases h
      exact .inl rfl
  | answer n reply =>
    simp only [LoginAction.run] at h
    split at h
    · cases h
      exact .inl rfl
    · cases h
      exact .inl rfl
  | sign n =>
    simp only [LoginAction.run] at h
    split at h
    · rename_i request key hc
      rcases hr : signUnderLock A i request.challenge request.identityId request.expiresAtEpochSeconds d.phone
        with ⟨r, p⟩
      simp only [hr] at h
      cases h
      rcases (signUnderLock_effect hr).2 with hsame | hsignable
      · exact .inl hsame
      · exact .inr ⟨n, request, key, rfl, hc, hsignable⟩
    · cases h
      exact .inl rfl
  | release n =>
    simp only [LoginAction.run] at h
    split at h
    · cases h
      exact .inl rfl
    · cases h
      exact .inl rfl
  | operation j op =>
    cases h
    exact .inl (SessionOp.run_quiet A C i j op d.phone).signed

/-- The signed bytes determine the challenge and the identity. In every interleaving no two calls return a proof for
one challenge, a proof comes after an approving consent to its identity in its own call, and a signature is made only
for an approved call whose request has not expired, by a session that is unlocked and not rotating. -/
theorem login_signing (A : Android σ) (C : Primitives) (i : ℕ) :
    (∀ challenge identityId challenge' identityId' b, signingBytes loginProfile challenge identityId = .ok b →
      signingBytes loginProfile challenge' identityId' = .ok b → challenge = challenge' ∧ identityId = identityId') ∧
    ∀ d₀ steps d, LoginRun A C i d₀ steps d →
      (steps.Pairwise fun e e' => ∀ n proof n' proof', e.result = .returned n proof → e'.result = .returned n' proof' →
        proof.challenge ≠ proof'.challenge) ∧
      (∀ before e, before ++ [e] <+: steps → ∀ n proof, e.result = .returned n proof →
        ∃ c ∈ before, c.result = .consented n loginProfile proof.identityId true) ∧
      ∀ e ∈ steps, e.after.phone.signed ≠ e.before.phone.signed → ∃ n request key, e.action = .sign n ∧
        e.before.calls n = some ⟨request, .approved key⟩ ∧
        Signable A i request.expiresAtEpochSeconds e.before.phone := by
  refine ⟨fun _ _ _ _ _ h h' => signingBytes_injective h h', fun d₀ steps d hrun => ?_⟩
  have hearlier : ∀ before e, before ++ [e] <+: steps → ∀ n proof, e.result = .returned n proof →
      LoginInvariant i before e.before ∧ ∃ request key, e.before.calls n = some ⟨request, .approved key⟩ ∧
        proof.challenge = request.challenge ∧ proof.identityId = request.identityId := by
    intro before e hpre n proof hev
    obtain ⟨htrace, hstep⟩ := hrun.2.of_concat hpre
    rw [hev] at hstep
    exact ⟨LoginRun.invariant ⟨hrun.1, htrace⟩, LoginAction.run_returned hstep⟩
  refine ⟨pairwise_of_concat fun before e' hpre e he n proof n' proof' hev hev' heq => ?_,
    fun before e hpre n proof hev => ?_, fun e he hsigned => ?_⟩
  · -- both calls hold the challenge, so they are one call, and it cannot be over and approved at once
    obtain ⟨hinv, request', key, hn', hkey, -⟩ := hearlier before e' hpre n' proof' hev'
    obtain ⟨request, hn⟩ := hinv.ended e he n proof hev
    have hheld : e'.before.held n = some proof.challenge := by rw [Desk.held, hn]; rfl
    have hheld' : e'.before.held n' = some proof.challenge := by
      rw [Desk.held, hn', heq, hkey, ← hinv.sound.key n' _ key hn' rfl]
      rfl
    obtain rfl := hinv.sound.unique n n' _ hheld hheld'
    rw [hn] at hn'
    cases hn'
  · obtain ⟨hinv, request, key, hn, -, hid⟩ := hearlier before e hpre n proof hev
    rw [hid]
    exact hinv.approved n request key hn
  · obtain ⟨hstep, -⟩ := hrun.2.of_mem he
    exact (LoginAction.run_signed hstep).resolve_left hsigned

namespace Handset

def request : LoginRequest := ⟨challenge, List.replicate 5 97, 1⟩

def primitives : Primitives := ⟨fun b => b, fun _ _ _ => true⟩

def desk : Desk Unit := ⟨phone, fun _ => none⟩

/-- Two calls with one challenge were made. The first reserves it, the second is refused, and the first gets consent. -/
def first : Desk Unit := desk.put 0 request (.checked challenge) phone

def second : Desk Unit := first.put 1 request (.checked challenge) phone

def asking : Desk Unit := second.put 0 request (.asking challenge) reserved

def refused : Desk Unit := asking.put 1 request (.ended (.error .loginProofRejected)) reserved

def approved : Desk Unit := refused.put 0 request (.approved challenge) reserved

end Handset

open Handset in
/-- Of two calls with one challenge, the one that reserved it returns a proof after consent, and the other fails. -/
theorem login_signing_returns : ∃ steps d, LoginRun android primitives 0 desk steps d ∧
    (∃ e ∈ steps, ∃ proof, e.result = .returned 0 proof) ∧ (∃ e ∈ steps, ∃ error, e.result = .threw 1 error) ∧
      ∃ c ∈ steps, c.result = .consented 0 loginProfile (List.replicate 5 97) true := by
  have hmessage := signingBytes_replicate (n := 5) (by decide)
  obtain ⟨proof, p', hsign⟩ := signUnderLock_run hmessage
  obtain ⟨-, -, hid, -⟩ := signUnderLock_ok hsign
  have hfirst : LoginAction.run android primitives 0 (.call 0 request) desk = (.silent, first) := by
    simp only [LoginAction.run, desk, request, loginChallengeKey_run hmessage]
    rfl
  have hsecond : LoginAction.run android primitives 0 (.call 1 request) first = (.silent, second) := by
    simp only [LoginAction.run, first, desk, request, Desk.put, Function.update_apply, one_ne_zero, if_false,
      loginChallengeKey_run hmessage]
    rfl
  have hreserve : LoginAction.run android primitives 0 (.reserve 0) second = (.silent, asking) := rfl
  have hrefuse : LoginAction.run android primitives 0 (.reserve 1) asking = (.threw 1 .loginProofRejected, refused) :=
    rfl
  have hanswer : LoginAction.run android primitives 0 (.answer 0 (some true)) refused =
      (.consented 0 loginProfile request.identityId true, approved) := rfl
  have hsigned : LoginAction.run android primitives 0 (.sign 0) approved =
      (.returned 0 proof, approved.put 0 request (.ended (.ok proof)) p') := by
    simp only [LoginAction.run, approved, request, Desk.put, Function.update_self, hsign]
    rfl
  have hasked : Trace (LoginAction.run android primitives 0) (fun _ _ _ => True) [] desk _ refused :=
    (((Trace.nil.snoc trivial hfirst).snoc trivial hsecond).snoc trivial hreserve).snoc trivial hrefuse
  have hrun : LoginRun android primitives 0 desk _ _ :=
    ⟨fun _ => rfl, (hasked.snoc trivial hanswer).snoc trivial hsigned⟩
  refine ⟨_, _, hrun, ⟨_, List.mem_append_right _ (List.mem_singleton_self _), proof, rfl⟩, ?_, ?_⟩
  · exact ⟨⟨asking, .reserve 1, .threw 1 .loginProofRejected, refused⟩, by simp, _, rfl⟩
  · obtain ⟨c, hc, hconsent⟩ := ((login_signing android primitives 0).2 desk _ _ hrun).2.1 _ _ (List.prefix_refl _) 0
      proof rfl
    exact ⟨c, List.mem_append_left _ hc, hid ▸ hconsent⟩

end DecentWallet.Kotlin
