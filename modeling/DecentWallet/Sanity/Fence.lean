import DecentWallet.Sanity.Frame

/-! The environment fence: a monitor over the transport calls of one confirmation or dispatch, and
what each part of those methods does to it. -/

namespace DecentWallet

open Cbor IdentityError

namespace Event

/-- A look at the transport's environment. -/
def isCheck : Event → Bool
  | .environment .. => true
  | _ => false

def isRemote : Event → Bool
  | .readRemote .. => true
  | _ => false

def isByHash : Event → Bool
  | .readByHash .. => true
  | _ => false

/-- A check that succeeds for `env`. -/
def passed (env : Option Str) : Event → Bool
  | .environment _ .absent => true
  | .environment _ (.str s) => some s == env
  | _ => false

def failed (env : Option Str) (e : Event) : Bool := e.isCheck && !e.passed env

/-- A put, and where `strict` also a remote read or one by hash. -/
def guarded (strict : Bool) (e : Event) : Bool := e.isPut || (strict && (e.isRemote || e.isByHash))

end Event

/-- The calls so far have kept the fence, and no check has failed. The index says whether the last call
was a check. -/
inductive Fence (env : Option Str) (strict : Bool) : Bool → List Event → Prop
  | start : Fence env strict false []
  | check {b es e} (h : Fence env strict b es) (he : e.passed env = true) : Fence env strict true (es ++ [e])
  | free {b es e} (h : Fence env strict b es) (hc : e.isCheck = false) (hg : e.guarded strict = false) :
      Fence env strict false (es ++ [e])
  | behind {es e} (h : Fence env strict true es) (hc : e.isCheck = false) : Fence env strict false (es ++ [e])

/-- A failed check was the last call. -/
def Shut (env : Option Str) (strict : Bool) (es : List Event) : Prop :=
  ∃ b before e, Fence env strict b before ∧ e.failed env = true ∧ es = before ++ [e]

/-- How a call may leave the fence. -/
def Ended (env : Option Str) (strict : Bool) (es : List Event) : Prop :=
  (∃ b, Fence env strict b es) ∨ Shut env strict es

section

variable {env : Option Str} {strict : Bool}

theorem concat_eq_append_cons {α : Type} {es l r : List α} {x e : α} (h : es ++ [x] = l ++ e :: r) :
    (r = [] ∧ e = x ∧ l = es) ∨ ∃ r', r = r' ++ [x] ∧ es = l ++ e :: r' := by
  rcases List.eq_nil_or_concat r with rfl | ⟨r', y, rfl⟩
  · have := List.append_inj' h rfl
    exact .inl ⟨rfl, by simpa using this.2.symm, this.1.symm⟩
  · rw [List.concat_eq_append, ← List.cons_append, ← List.append_assoc] at h
    have := List.append_inj' h rfl
    refine .inr ⟨r', ?_, this.1⟩
    rw [List.concat_eq_append, List.cons.inj this.2 |>.1]

theorem Fence.not_failed {b : Bool} {es : List Event} (h : Fence env strict b es) : ∀ e ∈ es, e.failed env = false := by
  induction h with
  | start => simp
  | check _ he ih =>
    intro e hmem
    rcases List.mem_append.1 hmem with hmem | hmem
    · exact ih e hmem
    · rw [List.mem_singleton.1 hmem]
      simp [Event.failed, he]
  | free _ hc _ ih | behind _ hc ih =>
    intro e hmem
    rcases List.mem_append.1 hmem with hmem | hmem
    · exact ih e hmem
    · rw [List.mem_singleton.1 hmem]
      simp [Event.failed, hc]

theorem Fence.last {es : List Event} (h : Fence env strict true es) : ∃ l c, es = l ++ [c] ∧ c.passed env = true := by
  cases h with
  | check _ he => exact ⟨_, _, rfl, he⟩

/-- A guarded call stands directly behind a successful check. -/
theorem Fence.checked {b : Bool} {es : List Event} (h : Fence env strict b es) {l r : List Event} {e : Event}
    (hes : es = l ++ e :: r) (he : e.guarded strict = true) : ∃ l' c, l = l' ++ [c] ∧ c.passed env = true := by
  induction h generalizing r with
  | start => simp at hes
  | check h hpass ih =>
    rcases concat_eq_append_cons hes with ⟨-, rfl, -⟩ | ⟨r', -, hes⟩
    · cases e <;> simp [Event.guarded, Event.isPut, Event.isRemote, Event.isByHash, Event.passed] at he hpass
    · exact ih hes
  | free h hc hg ih =>
    rcases concat_eq_append_cons hes with ⟨-, rfl, -⟩ | ⟨r', -, hes⟩
    · rw [he] at hg
      cases hg
    · exact ih hes
  | behind h hc ih =>
    rcases concat_eq_append_cons hes with ⟨-, rfl, rfl⟩ | ⟨r', -, hes⟩
    · exact h.last
    · exact ih hes

theorem Ended.checked {es : List Event} (h : Ended env strict es) {l r : List Event} {e : Event}
    (hes : es = l ++ e :: r) (he : e.guarded strict = true) : ∃ l' c, l = l' ++ [c] ∧ c.passed env = true := by
  rcases h with ⟨b, h⟩ | ⟨b, before, f, h, hf, rfl⟩
  · exact h.checked hes he
  · rcases concat_eq_append_cons hes with ⟨-, rfl, -⟩ | ⟨r', -, hes⟩
    · cases e <;> simp [Event.guarded, Event.isPut, Event.isRemote, Event.isByHash, Event.failed,
        Event.isCheck] at he hf
    · exact h.checked hes he

/-- Nothing follows a failed check. -/
theorem Ended.stops {es : List Event} (h : Ended env strict es) {l r : List Event} {e : Event}
    (hes : es = l ++ e :: r) (he : e.failed env = true) : r = [] := by
  rcases h with ⟨b, h⟩ | ⟨b, before, f, h, -, rfl⟩
  · exact absurd (h.not_failed e (by simp [hes])) (by simp [he])
  · rcases concat_eq_append_cons hes with ⟨rfl, -, -⟩ | ⟨r', -, hes⟩
    · rfl
    · exact absurd (h.not_failed e (by simp [hes])) (by simp [he])

variable {σ : Type}

/-- What was logged since `w₀` satisfies `p`. -/
def Since (w₀ : World σ) (p : List Event → Prop) (w : World σ) : Prop := ∃ es, w.log = w₀.log ++ es ∧ p es

variable {w₀ w : World σ} {p q : List Event → Prop}

theorem Since.mono (h : Since w₀ p w) (hpq : ∀ es, p es → q es) : Since w₀ q w := by
  obtain ⟨es, hes, hp⟩ := h
  exact ⟨es, hes, hpq es hp⟩

theorem Since.record (h : Since w₀ p w) (s : σ) {e : Event} (hpq : ∀ es, p es → q (es ++ [e])) :
    Since w₀ q (w.record s e) := by
  obtain ⟨es, hes, hp⟩ := h
  exact ⟨es ++ [e], by simp [World.record, hes], hpq es hp⟩

theorem Since.of_fence {b : Bool} (h : Since w₀ (Fence env strict b) w) : Since w₀ (Ended env strict) w :=
  h.mono fun _ hf => .inl ⟨b, hf⟩

theorem Since.of_shut (h : Since w₀ (Shut env strict) w) : Since w₀ (Ended env strict) w := h.mono fun _ => .inr

/-! ### Single calls -/

open Prog (Ends)

variable {P : Platform} {A : Adapter σ} {b : Bool} {F : IdentityError → World σ → Prop}

theorem getIdentityEnvelope_fence (n : Bytes) (h : Since w₀ (Fence env strict b) w) :
    Ends (getIdentityEnvelope A n) w (fun _ w' => Since w₀ (Fence env strict false) w') F :=
  ⟨fun _ _ hr => by cases hr; exact h.record _ fun _ hf => .free hf rfl (by cases strict <;> rfl), nofun⟩

theorem getIdentityEnvelopeByHash_fence (n hash : Bytes) (h : Since w₀ (Fence env strict true) w) :
    Ends (getIdentityEnvelopeByHash A n hash) w (fun _ w' => Since w₀ (Fence env strict false) w') F :=
  ⟨fun _ _ hr => by cases hr; exact h.record _ fun _ hf => .behind hf rfl, nofun⟩

theorem getIdentityEnvelopeByHash_free (n hash : Bytes) (h : Since w₀ (Fence env false b) w) :
    Ends (getIdentityEnvelopeByHash A n hash) w (fun _ w' => Since w₀ (Fence env false false) w') F :=
  ⟨fun _ _ hr => by cases hr; exact h.record _ fun _ hf => .free hf rfl rfl, nofun⟩

theorem getRemoteIdentityEnvelope_fence (n : Bytes) (h : Since w₀ (Fence env strict true) w) :
    Ends (getRemoteIdentityEnvelope A n) w (fun _ w' => Since w₀ (Fence env strict false) w') F :=
  ⟨fun _ _ hr => by cases hr; exact h.record _ fun _ hf => .behind hf rfl, nofun⟩

theorem putIdentityEnvelope_fence (n e : Bytes) (expected : Option Bytes) (t : ℤ)
    (h : Since w₀ (Fence env strict true) w) :
    Ends (putIdentityEnvelope A n e expected t) w (fun _ w' => Since w₀ (Fence env strict false) w') F :=
  ⟨fun _ _ hr => by cases hr; exact h.record _ fun _ hf => .behind hf rfl, nofun⟩

/-- The adapter itself is configured for `env`, so that every check asks the transport. -/
def Adapter.Configured (A : Adapter σ) (env : Option Str) : Prop := env.isSome = true ∧ env = A.registryEnvironment

theorem rotationEnvironmentMatches_fence (hA : A.Configured env) (h : Since w₀ (Fence env strict b) w) :
    Ends (rotationEnvironmentMatches A env) w
      (fun r w' => if r then Since w₀ (Fence env strict true) w' else Since w₀ (Shut env strict) w') F := by
  have hrun : rotationEnvironmentMatches A env w =
      (.ok ((Event.environment A.id (A.transport.registryEnvironment w.state).1).passed env),
        w.record (A.transport.registryEnvironment w.state).2
          (.environment A.id (A.transport.registryEnvironment w.state).1)) := by
    have hA : env.isSome = true ∧ env = A.registryEnvironment := hA
    simp only [rotationEnvironmentMatches, if_pos hA]
    cases (A.transport.registryEnvironment w.state).1 <;> rfl
  refine ⟨fun r w' hr => ?_, fun e w' hr => ?_⟩
  · rw [hrun] at hr
    cases hr
    split_ifs with hp
    · exact h.record _ fun _ hf => .check hf hp
    · exact h.record _ fun es hf => ⟨b, es, _, hf, by simp [Event.failed, Event.isCheck, hp], rfl⟩
  · rw [hrun] at hr
    cases hr

theorem rotationEnvironmentMatches_unconfigured (hA : ¬A.Configured env) (w : World σ) :
    rotationEnvironmentMatches A env w = (.ok false, w) := by
  simp only [rotationEnvironmentMatches]
  exact if_neg hA

/-- A program that only changes what the log does not show. -/
theorem silent_fence {α : Type} {x : Net σ α} (hx : ∀ w, ∃ a w', x w = (.ok a, w') ∧ w'.log = w.log)
    (h : Since w₀ p w) : Ends x w (fun _ w' => Since w₀ p w') F := by
  obtain ⟨a, w', hrun, hlog⟩ := hx w
  refine ⟨fun _ _ hr => ?_, fun _ _ hr => ?_⟩
  · rw [hrun] at hr
    cases hr
    obtain ⟨es, hes, hp⟩ := h
    exact ⟨es, hlog.trans hes, hp⟩
  · rw [hrun] at hr
    cases hr

theorem rotationTransportAvailable_silent (w : World σ) :
    ∃ a w', rotationTransportAvailable A w = (.ok a, w') ∧ w'.log = w.log := ⟨_, _, rfl, rfl⟩

theorem readTime_silent (w : World σ) : ∃ a w', readTime A w = (.ok a, w') ∧ w'.log = w.log := ⟨_, _, rfl, rfl⟩

theorem registerLatch_silent (a : ℕ) (x : RotationBinding) (ready : Bool) (w : World σ) :
    ∃ r w', registerLatch a x ready w = (.ok r, w') ∧ w'.log = w.log := ⟨_, _, rfl, rfl⟩

theorem isLatched_silent (a : ℕ) (x : RotationBinding) (w : World σ) :
    ∃ r w', isLatched a x w = (.ok r, w') ∧ w'.log = w.log := ⟨_, _, rfl, rfl⟩

theorem newObject_silent (w : World σ) : ∃ a w', newObject w = (.ok a, w') ∧ w'.log = w.log := ⟨_, _, rfl, rfl⟩

theorem claimPublication_silent (pub : RotationPublication P) (permit : RotationDispatchPermit) (w : World σ) :
    ∃ a w', claimPublication A pub permit w = (.ok a, w') ∧ w'.log = w.log := by
  unfold claimPublication
  by_cases h1 : pub.matchesIntent permit.intent.toRotationBinding = false
  · exact ⟨false, w, by simp [h1], rfl⟩
  by_cases h2 : (w.latches A.id).isDispatchReady permit.intent.toRotationBinding = false
  · exact ⟨false, w, by simp [h1, Prog.bind_run, isDispatchReady, h2], rfl⟩
  by_cases h3 : pub.adapter = A.id
  · by_cases h4 : pub.id ∈ w.consumed
    · exact ⟨false, w, by simp [h1, Prog.bind_run, isDispatchReady, h2, h3, consume, h4], rfl⟩
    · exact ⟨true, { w with consumed := pub.id :: w.consumed },
        by simp [h1, Prog.bind_run, isDispatchReady, h2, h3, consume, h4], rfl⟩
  · exact ⟨false, w, by simp [h1, Prog.bind_run, isDispatchReady, h2, h3], rfl⟩

/-! ### Reading a state -/

/-- What one lookup keeps, the walk to the anchor keeps. -/
theorem collectHistory_ends {I : World σ → Prop} {n : Bytes} {renv : Option Str} (hF : ∀ e w, I w → F e w)
    (hfetch : ∀ a w, I w → Ends (fetchPredecessor A n renv a) w (fun _ w' => I w') F) (rem : ℕ) :
    ∀ l e w, I w → Ends (collectHistory P A n renv rem l e) w (fun _ w' => I w') F := by
  induction rem with
  | zero =>
    intro l e w hw
    unfold collectHistory
    refine Ends.bind (Q := fun _ w' => I w') (Ends.lift (fun _ _ => hw) fun _ _ => hF _ _ hw) fun a w' hw' => ?_
    cases linkAuthorization a with
    | none =>
      exact Ends.bind (Q := fun _ w' => I w') (Ends.lift (fun _ _ => hw') fun _ _ => hF _ _ hw') fun _ _ h =>
        Ends.pure h
    | some c => exact Ends.raise (hF _ _ hw')
  | succ rem ih =>
    intro l e w hw
    unfold collectHistory
    refine Ends.bind (Q := fun _ w' => I w') (Ends.lift (fun _ _ => hw) fun _ _ => hF _ _ hw) fun a w' hw' => ?_
    cases linkAuthorization a with
    | none =>
      exact Ends.bind (Q := fun _ w' => I w') (Ends.lift (fun _ _ => hw') fun _ _ => hF _ _ hw') fun _ _ h =>
        Ends.pure h
    | some c => exact Ends.bind (hfetch c w' hw') fun predecessor w2 h => ih _ predecessor w2 h

theorem parseStateWithHistory_ends {I : World σ → Prop} {n : Bytes} {renv : Option Str} (hF : ∀ e w, I w → F e w)
    (hfetch : ∀ a w, I w → Ends (fetchPredecessor A n renv a) w (fun _ w' => I w') F) (e : Bytes) (hw : I w) :
    Ends (parseStateWithHistory P A n e renv) w (fun _ w' => I w') F :=
  Ends.bind (collectHistory_ends hF hfetch _ _ _ _ hw) fun _ _ h => Ends.lift (fun _ _ => h) fun _ _ => hF _ _ h

/-- The fence is up, whatever the last call was. -/
def Up (env : Option Str) (strict : Bool) (es : List Event) : Prop := ∃ b, Fence env strict b es

theorem Since.up (h : Since w₀ (Fence env strict b) w) : Since w₀ (Up env strict) w := h.mono fun _ hf => ⟨b, hf⟩

theorem Since.of_up (h : Since w₀ (Up env strict) w) : Since w₀ (Ended env strict) w := h.mono fun _ => .inl

theorem Since.exists_fence (h : Since w₀ (Up env strict) w) : ∃ b, Since w₀ (Fence env strict b) w := by
  obtain ⟨es, hes, b, hf⟩ := h
  exact ⟨b, es, hes, hf⟩

theorem fetchPredecessor_fence (hA : A.Configured env) (n : Bytes) (a : Authorization)
    (h : Since w₀ (Up env strict) w) : Ends (fetchPredecessor A n env a) w (fun _ w' => Since w₀ (Up env strict) w')
      fun _ w' => Since w₀ (Ended env strict) w' := by
  obtain ⟨b, h⟩ := h.exists_fence
  unfold fetchPredecessor
  rw [if_pos hA.1]
  refine Ends.bind (rotationEnvironmentMatches_fence hA h) fun m w1 h1 => ?_
  cases m with
  | false => exact Ends.bind (Q := fun _ _ => False) (Ends.reject (by simp) fun _ => h1.of_shut) fun _ _ hf => hf.elim
  | true =>
    refine Ends.bind (Q := fun _ w' => Since w₀ (Fence env strict true) w') (Ends.reject (fun _ => h1) (by simp))
      fun _ w2 h2 => Ends.bind (getIdentityEnvelopeByHash_fence n _ h2) fun f w3 h3 => ?_
    rcases f with _ | _ | e | _
    · exact Ends.raise h3.of_fence
    · exact Ends.raise h3.of_fence
    · exact Ends.pure h3.up
    · exact Ends.raise h3.of_fence

theorem fetchPredecessor_free (n : Bytes) (a : Authorization) (h : Since w₀ (Up env false) w) :
    Ends (fetchPredecessor A n none a) w (fun _ w' => Since w₀ (Up env false) w') fun _ w' =>
    Since w₀ (Up env false) w' := by
  obtain ⟨b, h⟩ := h.exists_fence
  unfold fetchPredecessor
  rw [if_neg (by simp)]
  refine Ends.bind (getIdentityEnvelopeByHash_free n _ h) fun f w3 h3 => ?_
  rcases f with _ | _ | e | _
  · exact Ends.raise h3.up
  · exact Ends.raise h3.up
  · exact Ends.pure h3.up
  · exact Ends.raise h3.up

theorem parseStateWithHistory_fence (hA : A.Configured env) (n e : Bytes) (h : Since w₀ (Up env strict) w) :
    Ends (parseStateWithHistory P A n e env) w (fun _ w' => Since w₀ (Up env strict) w')
      fun _ w' => Since w₀ (Ended env strict) w' :=
  parseStateWithHistory_ends (I := Since w₀ (Up env strict)) (fun _ _ h => h.of_up)
    (fun a _ h => fetchPredecessor_fence hA n a h) e h

/-- Reading the head checks nothing, so it leaves the fence up. -/
theorem tryReadState_fence (n : Bytes) (h : Since w₀ (Fence env false b) w) :
    Ends (tryReadState (P := P) A n) w (fun _ w' => Since w₀ (Up env false) w') fun _ w' =>
    Since w₀ (Up env false) w' := by
  have hread : Ends (readState P A n) w (fun _ w' => Since w₀ (Up env false) w') fun _ w' =>
    Since w₀ (Up env false) w' := by
    unfold readState
    refine Ends.bind (Q := fun _ w' => Since w₀ (Fence env false b) w') (Ends.lift (fun _ _ => h) fun _ _ => h.up)
      fun m w1 h1 => Ends.bind (getIdentityEnvelope_fence m h1) fun f w2 h2 => ?_
    rcases f with _ | _ | e | _
    · exact Ends.raise h2.up
    · exact Ends.pure h2.up
    · exact Ends.bind (parseStateWithHistory_ends (I := Since w₀ (Up env false)) (fun _ _ h => h)
        (fun a _ h => fetchPredecessor_free m a h) e h2.up) fun _ _ h => Ends.pure h
    · exact Ends.raise h2.up
  refine Ends.tryCatch (Ends.map hread) fun e w' hw' => ?_
  split_ifs
  · exact Ends.pure hw'
  · exact Ends.raise hw'

end

end DecentWallet
