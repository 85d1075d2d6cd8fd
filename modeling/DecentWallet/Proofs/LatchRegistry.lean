import DecentWallet.Sanity.LatchRegistry

/-! What the latch registry promises under concurrency. A permit to dispatch is there only because it was registered for
that very binding, after the owner was last cleared; a binding changes only by gaining an environment, and without a
permit. -/

namespace DecentWallet

open LatchRegistry

/-- The owner was cleared by this step. -/
def LatchStep.Clears (e : LatchStep) (ownerName : Bytes) : Prop :=
  ∃ b : RotationBinding, b.ownerName = ownerName ∧ e.result = some (.clear b, true)

/-- The permit for `b` was registered, and its owner was not cleared after that. -/
def Permitted (steps : List LatchStep) (b : RotationBinding) : Prop :=
  ∃ earlier e later, steps = earlier ++ e :: later ∧ e.result = some (.register b true, true) ∧
    ∀ x ∈ later, ¬ LatchStep.Clears x b.ownerName

theorem Permitted.concat {steps : List LatchStep} {b : RotationBinding} {e : LatchStep} (h : Permitted steps b)
    (he : ¬ e.Clears b.ownerName) : Permitted (steps ++ [e]) b := by
  obtain ⟨earlier, x, later, rfl, hresult, hlater⟩ := h
  refine ⟨earlier, x, later ++ [e], by simp, hresult, fun y hy => ?_⟩
  rcases List.mem_append.1 hy with hy | hy
  · exact hlater y hy
  · obtain rfl := List.mem_singleton.1 hy
    exact he

/-- What a step does to an owner's entry. -/
theorem LatchRegistry.Atomic.entry {e : LatchStep} (h : Atomic e) (ownerName : Bytes) :
    e.after.bindings ownerName = e.before.bindings ownerName ∧ ¬ e.Clears ownerName ∨
      ∃ c : LatchCall, c.value.ownerName = ownerName ∧ e.result = some (c, true) ∧
        c.Stores (e.before.bindings ownerName) (e.after.bindings ownerName) := by
  unfold Atomic at h
  cases hresult : e.result with
  | none =>
    rw [hresult] at h
    refine .inl ⟨congrFun h ownerName, ?_⟩
    rintro ⟨b, -, hclear⟩
    rw [hresult] at hclear
    cases hclear
  | some p =>
    obtain ⟨c, ok⟩ := p
    rw [hresult] at h
    rcases LatchCall.run_cases h with ⟨rfl, hsame⟩ | ⟨rfl, entry, hstores, hput⟩
    · refine .inl ⟨congrFun hsame ownerName, ?_⟩
      rintro ⟨b, -, hclear⟩
      rw [hresult] at hclear
      cases hclear
    · by_cases hname : c.value.ownerName = ownerName
      · subst hname
        refine .inr ⟨c, rfl, rfl, ?_⟩
        rw [hput, Latches.put, Function.update_self]
        exact hstores
      · refine .inl ⟨by rw [hput, Latches.put, Function.update_of_ne (Ne.symm hname)], ?_⟩
        rintro ⟨b, hb, hclear⟩
        rw [hresult] at hclear
        cases hclear
        exact hname hb

/-- Whoever leaves a permit registered it, or found it there. -/
theorem LatchCall.Stores.permit {c : LatchCall} {current entry : Option (RotationBinding × Bool)} {b : RotationBinding}
    (h : c.Stores current entry) (hb : entry = some (b, true)) :
    c = .register b true ∨ current = some (b, true) ∧ ∀ b', c ≠ .clear b' := by
  cases h with
  | free b₀ ready =>
    cases hb
    exact .inl rfl
  | again b₀ ready was =>
    obtain ⟨rfl, hready⟩ := Prod.mk.inj (Option.some.inj hb)
    rcases Bool.or_eq_true_iff.1 hready with rfl | rfl
    · exact .inl rfl
    · exact .inr ⟨rfl, by simp⟩
  | bind => cases hb
  | clear => cases hb

/-- A step keeps it so that every permit in the table was registered. -/
theorem LatchRegistry.Atomic.permitted {past : List LatchStep} {e : LatchStep} (h : Atomic e)
    (ih : ∀ ownerName b, e.before.bindings ownerName = some (b, true) → b.ownerName = ownerName ∧ Permitted past b)
    {ownerName : Bytes} {b : RotationBinding} (hb : e.after.bindings ownerName = some (b, true)) :
    b.ownerName = ownerName ∧ Permitted (past ++ [e]) b := by
  rcases h.entry ownerName with ⟨hsame, hclears⟩ | ⟨c, hname, hresult, hstores⟩
  · rw [hsame] at hb
    obtain ⟨rfl, hpermitted⟩ := ih ownerName b hb
    exact ⟨rfl, hpermitted.concat hclears⟩
  · rcases hstores.permit hb with rfl | ⟨hwas, hclear⟩
    · exact ⟨hname, past, e, [], rfl, hresult, by simp⟩
    · obtain ⟨rfl, hpermitted⟩ := ih ownerName b hwas
      refine ⟨rfl, hpermitted.concat ?_⟩
      rintro ⟨b', -, hb'⟩
      rw [hresult] at hb'
      exact hclear b' (Prod.mk.inj (Option.some.inj hb')).1

theorem LatchRun.permitted {steps : List LatchStep} {r : LatchRegistry} (h : LatchRun steps r) (ownerName : Bytes)
    (b : RotationBinding) (hb : r.bindings ownerName = some (b, true)) : b.ownerName = ownerName ∧
    Permitted steps b := by
  have hinv := Trace.keeps (I := fun past r => r.Sound past ∧ ∀ ownerName b, r.bindings ownerName = some (b, true) →
    b.ownerName = ownerName ∧ Permitted past b) h ⟨sound_new, by simp [new]⟩ ?_
  · exact hinv.2 ownerName b hb
  · intro past r a result r' ih _ hstep
    obtain ⟨hsound, hatomic⟩ := ih.1.step hstep
    exact ⟨hsound, fun ownerName b hb => hatomic.permitted ih.2 hb⟩

theorem LatchStep.clears_of_result {e : LatchStep} (h : Atomic e) {b : RotationBinding}
    (hresult : e.result = some (.clear b, true)) :
    (∃ ready, e.before.bindings b.ownerName = some (b, ready)) ∧ e.after.bindings b.ownerName = none := by
  rcases h.entry b.ownerName with ⟨-, hno⟩ | ⟨c, hname, hc, hstores⟩
  · exact absurd ⟨b, rfl, hresult⟩ hno
  · obtain rfl := (Prod.mk.inj (Option.some.inj (hresult.symm.trans hc))).1
    generalize hbefore : e.before.bindings b.ownerName = before at hstores
    generalize hafter : e.after.bindings b.ownerName = after at hstores
    cases hstores with
    | clear _ was => exact ⟨⟨was, rfl⟩, rfl⟩

/-- Every interleaving of `register` and `clear`: whence a permit comes, how a binding is replaced, what is cleared, and
what is left alone. -/
theorem latch_registry_guarantees (steps : List LatchStep) (r : LatchRegistry) (h : LatchRun steps r) :
    (∀ b, r.bindings.isDispatchReady b = true → Permitted steps b) ∧
    (∀ e ∈ steps, ∀ ownerName b ready b' ready', e.before.bindings ownerName = some (b, ready) →
      e.after.bindings ownerName = some (b', ready') → b' ≠ b →
      b' = { b with environment := b'.environment } ∧ b.environment = none ∧ b'.environment ≠ none ∧
        ready = false ∧ ready' = false) ∧
    (∀ e ∈ steps, ∀ b, e.result = some (.clear b, true) →
      (∃ ready, e.before.bindings b.ownerName = some (b, ready)) ∧ e.after.bindings b.ownerName = none) ∧
    (∀ n b, r.calls n = some (.clear b, .returned true) →
      ∃ e ∈ steps, e.action = .next n ∧ e.result = some (.clear b, true)) ∧
    ∀ e ∈ steps, ∀ ownerName, (∀ c ok, e.result = some (c, ok) → c.value.ownerName ≠ ownerName) →
      e.after.bindings ownerName = e.before.bindings ownerName := by
  obtain ⟨hsound, hatomic⟩ := h.sound
  refine ⟨fun b hb => ?_, fun e he ownerName b ready b' ready' hb hb' hne => ?_,
    fun e he b hresult => LatchStep.clears_of_result (hatomic e he) hresult, fun n b hcall => ?_,
    fun e he ownerName hother => ?_⟩
  · unfold Latches.isDispatchReady at hb
    cases hchecked : b.checked with
    | none =>
      rw [hchecked] at hb
      cases hb
    | some b₀ =>
      obtain rfl := RotationBinding.eq_of_checked hchecked
      rw [hchecked] at hb
      exact (h.permitted b.ownerName b (by simpa using hb)).2
  · rcases (hatomic e he).entry ownerName with ⟨hsame, -⟩ | ⟨c, -, -, hstores⟩
    · rw [hb, hb'] at hsame
      cases hsame
      exact absurd rfl hne
    · rw [hb, hb'] at hstores
      generalize hbefore : some (b, ready) = before at hstores
      generalize hafter : some (b', ready') = after at hstores
      cases hstores with
      | free => cases hbefore
      | again =>
        cases hbefore
        cases hafter
        exact absurd rfl hne
      | bind hnone hsome heq =>
        cases hbefore
        cases hafter
        exact ⟨heq.symm, hnone, hsome, rfl, rfl⟩
      | clear => cases hafter
  · rcases (hsound n _ _ hcall).outcome true rfl with ⟨hfalse, -⟩ | ⟨e, he, hdid⟩
    · cases hfalse
    · exact ⟨e, he, hdid⟩
  · rcases (hatomic e he).entry ownerName with ⟨hsame, -⟩ | ⟨c, hname, hresult, -⟩
    · exact hsame
    · exact absurd hname (hother c true hresult)

namespace Sample

def legacyBinding (ownerName : Bytes) : RotationBinding where
  environment := none
  ownerName := ownerName
  predecessorOwnerPublicKey := List.replicate 32 1
  successorOwnerPublicKey := List.replicate 32 2
  predecessorStateHash := List.replicate 32 3
  sequence := 2
  envelopeHash := List.replicate 32 4

def boundBinding : RotationBinding := { legacyBinding [1] with environment := some (str "testnet") }

/-- A call that is not interrupted. -/
def latchCall (n : ℕ) (c : LatchCall) : List LatchAction := .call n c :: List.replicate 8 (.next n)

/-- Two calls for one owner that wait for each other's locks, then the permit, then another owner's latch and its
end. -/
def latchActions : List LatchAction :=
  .call 0 (.register (legacyBinding [1]) false) :: .call 1 (.register boundBinding false) ::
    List.flatten [(List.replicate 16 [.next 0, .next 1]).flatten, latchCall 2 (.register boundBinding true),
      latchCall 3 (.register (legacyBinding [2]) true), latchCall 4 (.clear (legacyBinding [2]))]

def latchSteps : List LatchStep × LatchRegistry := Trace.calls LatchAction.run .new latchActions

end Sample

theorem latch_registry_guarantees_sample :
    LatchRun Sample.latchSteps.1 Sample.latchSteps.2 ∧
    Sample.latchSteps.2.bindings.isDispatchReady Sample.boundBinding = true ∧
    Permitted Sample.latchSteps.1 Sample.boundBinding ∧
    (∃ e ∈ Sample.latchSteps.1, e.before.bindings [1] = some (Sample.legacyBinding [1], false) ∧
      e.after.bindings [1] = some (Sample.boundBinding, false) ∧
      Sample.boundBinding = { Sample.legacyBinding [1] with environment := Sample.boundBinding.environment }) ∧
    ∃ e ∈ Sample.latchSteps.1, e.action = .next 4 ∧ e.result = some (.clear (Sample.legacyBinding [2]), true) ∧
      (∃ ready, e.before.bindings [2] = some (Sample.legacyBinding [2], ready)) ∧
      e.after.bindings [1] = e.before.bindings [1] := by
  have hrun : LatchRun Sample.latchSteps.1 Sample.latchSteps.2 := Trace.of_calls _ _ _ _
  obtain ⟨hpermit, hreplaced, hcleared, hreturned, hframe⟩ := latch_registry_guarantees _ _ hrun
  have hready : Sample.latchSteps.2.bindings.isDispatchReady Sample.boundBinding = true := by decide +kernel
  have hbind : ∃ e ∈ Sample.latchSteps.1, e.before.bindings [1] = some (Sample.legacyBinding [1], false) ∧
      e.after.bindings [1] = some (Sample.boundBinding, false) := by decide +kernel
  have hreturn : Sample.latchSteps.2.calls 4 = some (.clear (Sample.legacyBinding [2]), .returned true) := by
    decide +kernel
  obtain ⟨e, he, hb, hb'⟩ := hbind
  obtain ⟨x, hx, haction, hresult⟩ := hreturned 4 _ hreturn
  refine ⟨hrun, hready, hpermit _ hready,
    ⟨e, he, hb, hb', (hreplaced e he _ _ _ _ _ hb hb' (by decide)).1⟩,
    x, hx, haction, hresult, (hcleared x hx _ hresult).1, hframe x hx [1] fun c ok hc => ?_⟩
  rw [hresult] at hc
  cases hc
  decide

end DecentWallet
