import DecentWallet.Spec.Publish

/-! What the adapter's methods leave alone: a read changes nothing but the log, and only the methods
that write issue a put. -/

namespace DecentWallet

open IdentityError

def Event.isPut : Event → Bool
  | .put .. => true
  | _ => false

section

variable {σ : Type}

namespace Moment

def isPut : Moment σ → Bool
  | .call e => e.isPut
  | _ => false

/-- The transport calls among some moments. -/
def calls (l : List (Moment σ)) : List Event := l.filterMap fun m => match m with
  | .call e => some e
  | _ => none

@[simp] theorem calls_nil : calls ([] : List (Moment σ)) = [] := rfl

@[simp] theorem calls_append (l k : List (Moment σ)) : calls (l ++ k) = calls l ++ calls k := List.filterMap_append

theorem isPut_calls {l : List (Moment σ)} (h : ∀ m ∈ l, m.isPut = false) : ∀ e ∈ calls l, e.isPut = false := by
  intro e he
  obtain ⟨m, hm, hcall⟩ := List.mem_filterMap.1 he
  cases m with
  | call e' =>
    cases hcall
    exact h _ hm
  | _ => cases hcall

end Moment

/-- From one world to the other the adapters did `l`. -/
structure World.Passes (w : World σ) (l : List (Moment σ)) (w' : World σ) : Prop where
  trail : w'.trail = w.trail ++ l
  log : w'.log = w.log ++ Moment.calls l

theorem World.Passes.append {w₁ w₂ w₃ : World σ} {l k : List (Moment σ)} (h : w₁.Passes l w₂) (h' : w₂.Passes k w₃) :
    w₁.Passes (l ++ k) w₃ :=
  ⟨by rw [h'.trail, h.trail, List.append_assoc], by rw [h'.log, h.log, Moment.calls_append, List.append_assoc]⟩

theorem World.Passes.nil {w w' : World σ} (htrail : w'.trail = w.trail) (hlog : w'.log = w.log) : w.Passes [] w' :=
  ⟨by rw [htrail, List.append_nil], by rw [hlog, Moment.calls_nil, List.append_nil]⟩

/-- Nothing was put; latches and capabilities are as they were. -/
structure Quiet (w w' : World σ) : Prop where
  latches : w'.latches = w.latches
  consumed : w'.consumed = w.consumed
  fresh : w'.fresh = w.fresh
  passes : ∃ new, w.Passes new w' ∧ ∀ m ∈ new, m.isPut = false

theorem Quiet.log {w w' : World σ} (h : Quiet w w') : ∃ new, w'.log = w.log ++ new ∧ ∀ e ∈ new, e.isPut = false := by
  obtain ⟨new, hpasses, hnew⟩ := h.passes
  exact ⟨_, hpasses.log, Moment.isPut_calls hnew⟩

instance : Std.Refl (Quiet (σ := σ)) where
  refl _ := ⟨rfl, rfl, rfl, [], .nil rfl rfl, by simp⟩

instance : IsTrans (World σ) Quiet where
  trans u v w huv hvw := by
    obtain ⟨new, h1, h2⟩ := huv.passes
    obtain ⟨new', h1', h2'⟩ := hvw.passes
    refine ⟨hvw.latches.trans huv.latches, hvw.consumed.trans huv.consumed, hvw.fresh.trans huv.fresh,
      new ++ new', h1.append h1', fun m hm => ?_⟩
    rcases List.mem_append.1 hm with hm | hm
    · exact h2 m hm
    · exact h2' m hm

theorem World.record_quiet (w : World σ) (s : σ) {e : Event} (he : e.isPut = false) : Quiet w (w.record s e) :=
  ⟨rfl, rfl, rfl, [.call e], ⟨rfl, rfl⟩, by simpa [Moment.isPut] using he⟩

theorem World.state_quiet (w : World σ) (s : σ) : Quiet w { w with state := s } :=
  ⟨rfl, rfl, rfl, [], .nil rfl rfl, by simp⟩

variable {P : Platform} (A : Adapter σ)

/-! ### Single calls -/

theorem getIdentityEnvelope_quiet (n : Bytes) : Prog.Keeps Quiet (getIdentityEnvelope A n) :=
  fun w => w.record_quiet _ rfl

theorem getIdentityEnvelopeByHash_quiet (n h : Bytes) : Prog.Keeps Quiet (getIdentityEnvelopeByHash A n h) :=
  fun w => w.record_quiet _ rfl

theorem getRemoteIdentityEnvelope_quiet (n : Bytes) : Prog.Keeps Quiet (getRemoteIdentityEnvelope A n) :=
  fun w => w.record_quiet _ rfl

theorem readTime_quiet : Prog.Keeps Quiet (readTime A) := fun w =>
  ⟨rfl, rfl, rfl, [.clock A.id (A.transport.time w.state).1], ⟨rfl, by simp [readTime, Moment.calls]⟩,
    by simp [Moment.isPut]⟩

theorem isOwnerLatched_quiet (a : ℕ) (n : Bytes) : Prog.Keeps Quiet (isOwnerLatched a n : Net σ Bool) :=
  fun w => Std.Refl.refl w

/-! ### Consent -/

theorem reserveReplayNonce_quiet (n : Bytes) (r : ConsentRequest) :
    Prog.Keeps Quiet (reserveReplayNonce P A n r) := by
  intro w
  unfold reserveReplayNonce
  split
  · exact Std.Refl.refl w
  · exact ⟨rfl, rfl, rfl, [.consume A.id _ w.state _], ⟨rfl, by simp [Moment.calls]⟩, by simp [Moment.isPut]⟩

theorem consentGateBegin_quiet (n : Bytes) (r : ConsentRequest) : Prog.Keeps Quiet (consentGateBegin P A n r) := by
  unfold consentGateBegin
  refine (reserveReplayNonce_quiet A n r).bind fun x => ?_
  rcases x with _ | _ | _
  · exact Prog.Keeps.pure _
  · exact Prog.Keeps.pure _
  · exact (readTime_quiet A).bind fun _ => (Prog.Keeps.pure _).ite (Prog.Keeps.pure _)

theorem consentGateEnd_quiet (r : ConsentRequest) (d : ConsentDecision) : Prog.Keeps Quiet (consentGateEnd A r d) :=
  (Prog.Keeps.pure _).ite ((readTime_quiet A).bind fun _ => (Prog.Keeps.pure _).ite (Prog.Keeps.pure _))

/-! ### Availability -/

theorem rotationTransportAvailable_quiet : Prog.Keeps Quiet (rotationTransportAvailable A) := fun w => w.state_quiet _

theorem rotationEnvironmentMatches_quiet (env : Option Str) :
    Prog.Keeps Quiet (rotationEnvironmentMatches A env) := by
  intro w
  unfold rotationEnvironmentMatches
  split_ifs
  · exact w.record_quiet _ rfl
  · exact Std.Refl.refl w

/-! ### Reading a state -/

theorem fetchPredecessor_quiet (n : Bytes) (renv : Option Str) (a : Authorization) :
    Prog.Keeps Quiet (fetchPredecessor A n renv a) := by
  unfold fetchPredecessor
  split_ifs
  · refine (rotationEnvironmentMatches_quiet A renv).bind fun m => (Prog.Keeps.reject _ _).bind fun _ =>
      (getIdentityEnvelopeByHash_quiet A n _).bind fun f => ?_
    rcases f with _ | _ | b | _
    · exact Prog.Keeps.raise _
    · exact Prog.Keeps.raise _
    · exact Prog.Keeps.pure b
    · exact Prog.Keeps.raise _
  · refine (getIdentityEnvelopeByHash_quiet A n _).bind fun f => ?_
    rcases f with _ | _ | b | _
    · exact Prog.Keeps.raise _
    · exact Prog.Keeps.raise _
    · exact Prog.Keeps.pure b
    · exact Prog.Keeps.raise _

theorem collectHistory_quiet (n : Bytes) (renv : Option Str) (rem : ℕ) :
    ∀ l e, Prog.Keeps Quiet (collectHistory P A n renv rem l e) := by
  induction rem with
  | zero =>
    intro l e
    unfold collectHistory
    refine (Prog.Keeps.lift _).bind fun a => ?_
    cases linkAuthorization a with
    | none => exact (Prog.Keeps.lift _).bind fun s => Prog.Keeps.pure _
    | some b => exact Prog.Keeps.raise _
  | succ rem ih =>
    intro l e
    unfold collectHistory
    refine (Prog.Keeps.lift _).bind fun a => ?_
    cases linkAuthorization a with
    | none => exact (Prog.Keeps.lift _).bind fun s => Prog.Keeps.pure _
    | some b => exact (fetchPredecessor_quiet A n renv b).bind fun p => ih _ p

theorem parseStateWithHistory_quiet (n e : Bytes) (renv : Option Str) :
    Prog.Keeps Quiet (parseStateWithHistory P A n e renv) :=
  (collectHistory_quiet A n renv _ _ _).bind fun _ => Prog.Keeps.lift _

theorem readState_quiet (n : Bytes) : Prog.Keeps Quiet (readState P A n) := by
  unfold readState
  refine (Prog.Keeps.lift _).bind fun n => (getIdentityEnvelope_quiet A n).bind fun f => ?_
  rcases f with _ | _ | e | _
  · exact Prog.Keeps.raise _
  · exact Prog.Keeps.pure _
  · exact (parseStateWithHistory_quiet A n e none).bind fun s => Prog.Keeps.pure _
  · exact Prog.Keeps.raise _

theorem tryReadState_quiet (n : Bytes) : Prog.Keeps Quiet (tryReadState (P := P) A n) := by
  refine ((readState_quiet A n).map some).tryCatch fun e => ?_
  split_ifs
  · exact Prog.Keeps.pure _
  · exact Prog.Keeps.raise _

theorem confirm_quiet (n e : Bytes) (previous : Option IdentityState) :
    Prog.Keeps Quiet (confirm (P := P) A n e previous) := by
  unfold confirm
  refine (Prog.Keeps.lift _).bind fun n => (getIdentityEnvelope_quiet A n).bind fun f => ?_
  rcases f with _ | _ | c | _
  · exact Prog.Keeps.pure _
  · exact Prog.Keeps.pure _
  · simp only
    cases parseIdentityEnvelope P n c previous with
    | ok s => exact Prog.Keeps.pure _
    | error err => exact Prog.Keeps.pure _
  · exact Prog.Keeps.pure _

/-! ### Confirming a rotation -/

theorem verifyRemoteOrNone_quiet (b : RotationBinding) (remote : Bytes) :
    Prog.Keeps Quiet (verifyRemoteOrNone (P := P) A b remote) := by
  refine Prog.Keeps.tryCatch ?_ fun _ => Prog.Keeps.pure _
  unfold verifyRemote
  refine (parseStateWithHistory_quiet A _ _ _).bind fun s => (Prog.Keeps.pure _).ite ?_
  refine (rotationEnvironmentMatches_quiet A _).bind fun m => (Prog.Keeps.pure _).ite ?_
  refine (getIdentityEnvelopeByHash_quiet A _ _).bind fun f => ?_
  rcases f with _ | _ | e | _
  · exact Prog.Keeps.pure _
  · exact Prog.Keeps.pure _
  · exact (parseStateWithHistory_quiet A _ _ _).bind fun p => (Prog.Keeps.pure _).ite (Prog.Keeps.pure _)
  · exact Prog.Keeps.pure _

theorem readLatchedRemote_quiet (b : RotationBinding) : Prog.Keeps Quiet (readLatchedRemote (P := P) A b) := by
  unfold readLatchedRemote
  refine (getRemoteIdentityEnvelope_quiet A _).bind fun f => ?_
  rcases f with _ | a
  · exact Prog.Keeps.pure _
  · refine (rotationEnvironmentMatches_quiet A _).bind fun m => (Prog.Keeps.pure _).ite ?_
    cases a <;> exact Prog.Keeps.pure _

theorem confirmationPossible_quiet (b : RotationBinding) : Prog.Keeps Quiet (confirmationPossible A b) := by
  unfold confirmationPossible
  refine (Prog.Keeps.pure _).ite ?_
  exact (rotationEnvironmentMatches_quiet A _).bind fun m =>
    (Prog.Keeps.pure _).ite (rotationTransportAvailable_quiet A)

end

end DecentWallet
