import DecentWallet.Sanity.Latches
import DecentWallet.Spec.LatchRegistry

/-! The guarded block of `register` and `clear` is atomic. Only the call that has the guard is past the reading of the
table, so what it has read is still there when it writes, and its step is the call as if nothing else ran. -/

namespace DecentWallet

/-! ### What a call stores -/

/-- What a call that returns `True` leaves where `current` was. -/
inductive LatchCall.Stores : LatchCall → Option (RotationBinding × Bool) → Option (RotationBinding × Bool) → Prop where
  | free (b : RotationBinding) (ready : Bool) : Stores (.register b ready) none (some (b, ready))
  | again (b : RotationBinding) (ready was : Bool) : Stores (.register b ready) (some (b, was)) (some (b, ready || was))
  | bind {b b₀ : RotationBinding} (hnone : b₀.environment = none) (hsome : b.environment ≠ none)
      (heq : { b₀ with environment := b.environment } = b) :
      Stores (.register b false) (some (b₀, false)) (some (b, false))
  | clear (b : RotationBinding) (was : Bool) : Stores (.clear b) (some (b, was)) none

theorem Latches.mayReplace_iff {c : RotationBinding × Bool} {b : RotationBinding} {ready : Bool} :
    mayReplace c b ready = true ↔ ready = false ∧ c.2 = false ∧ c.1.environment = none ∧ b.environment ≠ none ∧
      { c.1 with environment := b.environment } = b := by
  simp [mayReplace, and_assoc, Option.isSome_iff_ne_none]

namespace LatchCall

theorem stores_of_decide {c : LatchCall} {current entry : Option (RotationBinding × Bool)}
    (h : c.decide current = some entry) : c.Stores current entry := by
  cases c with
  | register b ready =>
    cases current with
    | none =>
      obtain rfl := Option.some.inj h
      exact .free b ready
    | some old =>
      obtain ⟨b₀, was⟩ := old
      simp only [decide] at h
      split_ifs at h with hrefused
      obtain rfl := Option.some.inj h
      by_cases hb : b₀ = b
      · subst hb
        exact .again b₀ ready was
      · have hmay : Latches.mayReplace (b₀, was) b ready = true := by
          by_contra hno
          exact hrefused ⟨hb, by simpa using hno⟩
        obtain ⟨rfl, rfl, hnone, hsome, heq⟩ := Latches.mayReplace_iff.1 hmay
        exact .bind hnone hsome heq
  | clear b =>
    cases current with
    | none => cases h
    | some old =>
      obtain ⟨b₀, was⟩ := old
      simp only [decide, ne_eq, ite_not] at h
      split_ifs at h with hb
      obtain rfl := Option.some.inj h
      subst hb
      exact .clear b₀ was

/-- `register` and `clear` read, decide and write. -/
theorem run_eq {c : LatchCall} (hc : c.value.checked = some c.value) (l : Latches) :
    c.run l = match c.decide (l c.value.ownerName) with
      | none => (false, l)
      | some entry => (true, l.put c.value.ownerName entry) := by
  cases c with
  | register b ready =>
    simp only [value] at hc ⊢
    simp only [run, Latches.register, hc, decide]
    cases l b.ownerName with
    | none => rfl
    | some old =>
      simp only
      split_ifs <;> rfl
  | clear b =>
    simp only [value] at hc ⊢
    simp only [run, Latches.clear, hc, decide]
    cases l b.ownerName with
    | none => rfl
    | some old =>
      simp only [Option.any_some, decide_eq_true_eq, ne_eq, ite_not]
      split_ifs <;> rfl

/-- Everything a call can do to the table. -/
theorem run_cases {c : LatchCall} {l l' : Latches} {ok : Bool} (h : c.run l = (ok, l')) :
    ok = false ∧ l' = l ∨
      ok = true ∧ ∃ entry, c.Stores (l c.value.ownerName) entry ∧ l' = l.put c.value.ownerName entry := by
  cases hchecked : c.value.checked with
  | none =>
    have hrun : c.run l = (false, l) := by
      cases c with
      | register b ready => simp only [run, Latches.register, show b.checked = none from hchecked]
      | clear b => simp only [run, Latches.clear, show b.checked = none from hchecked]
    rw [hrun] at h
    exact .inl ⟨(Prod.mk.inj h).1.symm, (Prod.mk.inj h).2.symm⟩
  | some b =>
    obtain rfl := RotationBinding.eq_of_checked hchecked
    rw [run_eq hchecked] at h
    cases hdecide : c.decide (l c.value.ownerName) with
    | none =>
      rw [hdecide] at h
      exact .inl ⟨(Prod.mk.inj h).1.symm, (Prod.mk.inj h).2.symm⟩
    | some entry =>
      rw [hdecide] at h
      exact .inr ⟨(Prod.mk.inj h).1.symm, entry, stores_of_decide hdecide, (Prod.mk.inj h).2.symm⟩

end LatchCall

/-! ### Who is in the guarded block -/

/-- Between taking the guard and giving it back. -/
def LatchStage.hasGuard : LatchStage → Bool
  | lookingUp | guarded _ | read _ _ | decided _ _ => true
  | called | found _ | locked _ | unguarded _ _ | returned _ => false

/-- What the call returns, once that is settled. -/
def LatchStage.result : LatchStage → Option Bool
  | decided _ ok | unguarded _ ok | returned ok => some ok
  | called | lookingUp | found _ | locked _ | guarded _ | read _ _ => none

namespace LatchRegistry

/-- What holds of a call at the stage where it stands. -/
structure Stands (past : List LatchStep) (r : LatchRegistry) (n : ℕ) (c : LatchCall) (stage : LatchStage) : Prop where
  guard : stage.hasGuard = true → r.guard = some n
  wellFormed : stage = .returned false ∨ c.value.checked = some c.value
  current : ∀ lock current, stage = .read lock current → current = r.bindings c.value.ownerName
  outcome : ∀ ok, stage.result = some ok →
    ok = false ∧ c.value.checked = none ∨ ∃ e ∈ past, e.action = .next n ∧ e.result = some (c, ok)

def Sound (past : List LatchStep) (r : LatchRegistry) : Prop :=
  ∀ n c stage, r.calls n = some (c, stage) → r.Stands past n c stage

variable {past : List LatchStep} {r r' : LatchRegistry} {n : ℕ} {c : LatchCall} {stage : LatchStage} {e : LatchStep}

/-- A call whose result is open and that has read nothing. -/
theorem Stands.of_open (hchecked : c.value.checked = some c.value) (hresult : stage.result = none)
    (hread : ∀ lock current, stage ≠ .read lock current) (hguard : stage.hasGuard = true → r.guard = some n) :
    r.Stands past n c stage := by
  refine ⟨hguard, .inr hchecked, fun lock current h => absurd h (hread lock current), fun ok hok => ?_⟩
  rw [hresult] at hok
  cases hok

theorem Stands.of_settled {ok : Bool} (hchecked : c.value.checked = some c.value) (hresult : stage.result = some ok)
    (hguard : stage.hasGuard = true → r.guard = some n)
    (hdid : ∃ e ∈ past, e.action = .next n ∧ e.result = some (c, ok)) : r.Stands past n c stage := by
  refine ⟨hguard, .inr hchecked, fun lock current h => ?_, fun ok' hok => ?_⟩
  · rw [h] at hresult
    cases hresult
  · obtain rfl := Option.some.inj (hresult.symm.trans hok)
    exact .inr hdid

/-- A call that does not move stands as it did, if nobody else took its guard or wrote in its block. -/
theorem Stands.of_other (h : r.Stands past n c stage)
    (hsame : stage.hasGuard = true → r'.guard = r.guard ∧ r'.bindings = r.bindings) :
    r'.Stands (past ++ [e]) n c stage := by
  refine ⟨fun hg => ?_, h.wellFormed, fun lock current hread => ?_, fun ok hok => ?_⟩
  · rw [(hsame hg).1]
    exact h.guard hg
  · rw [(hsame (by rw [hread]; rfl)).2]
    exact h.current lock current hread
  · rcases h.outcome ok hok with hrefused | ⟨e', he', hdid⟩
    · exact .inl hrefused
    · exact .inr ⟨e', List.mem_append_left _ he', hdid⟩

/-- Nobody else is in the block when the guard is free or the call's own. -/
theorem Sound.alone (h : r.Sound past) (hguard : r.guard = none ∨ r.guard = some n) {m : ℕ} (hm : m ≠ n)
    {c' : LatchCall} (hcall : r.calls m = some (c', stage)) : stage.hasGuard = false := by
  by_contra hg
  have hmine := (h m c' stage hcall).guard (by simpa using hg)
  rcases hguard with hfree | hown
  · rw [hfree] at hmine
    cases hmine
  · rw [hown] at hmine
    exact hm (Option.some.inj hmine).symm

/-- One call moves, and only in the block does it touch the guard or the table. -/
theorem Sound.moved (h : r.Sound past) (hcalls : r'.calls = Function.update r.calls n (some (c, stage)))
    (hothers : r.guard = none ∨ r.guard = some n ∨ r'.guard = r.guard ∧ r'.bindings = r.bindings)
    (hstands : r'.Stands (past ++ [e]) n c stage) : r'.Sound (past ++ [e]) := by
  intro m c' stage' hcall
  rw [hcalls] at hcall
  by_cases hm : m = n
  · subst hm
    rw [Function.update_self] at hcall
    obtain ⟨rfl, rfl⟩ := Prod.mk.inj (Option.some.inj hcall)
    exact hstands
  · rw [Function.update_of_ne hm] at hcall
    refine (h m c' stage' hcall).of_other fun hg => ?_
    rcases hothers with hfree | hown | hsame
    · rw [h.alone (.inl hfree) hm hcall] at hg
      cases hg
    · rw [h.alone (.inr hown) hm hcall] at hg
      cases hg
    · exact hsame

theorem Sound.same (h : r.Sound past) : r.Sound (past ++ [e]) :=
  fun m c' stage' hcall => (h m c' stage' hcall).of_other fun _ => ⟨rfl, rfl⟩

theorem ownerLock_frame (r : LatchRegistry) (ownerName : Bytes) :
    (r.ownerLock ownerName).2.calls = r.calls ∧ (r.ownerLock ownerName).2.bindings = r.bindings := by
  unfold ownerLock
  split <;> exact ⟨rfl, rfl⟩

theorem Stands.checked (h : r.Stands past n c stage) (hstage : stage ≠ .returned false) :
    c.value.checked = some c.value :=
  h.wellFormed.resolve_left hstage

/-- The guarded block of a call whose result is settled was run. -/
theorem Stands.did (h : r.Stands past n c stage) (hchecked : c.value.checked = some c.value) {ok : Bool}
    (hok : stage.result = some ok) :
    ∃ e' ∈ past ++ [e], e'.action = .next n ∧ e'.result = some (c, ok) := by
  rcases h.outcome ok hok with ⟨-, hnone⟩ | ⟨e', he', haction, hresult⟩
  · rw [hchecked] at hnone
    cases hnone
  · exact ⟨e', List.mem_append_left _ he', haction, hresult⟩

/-- What one step does to the table: nothing, or one call as a whole. -/
def Atomic (e : LatchStep) : Prop :=
  match e.result with
  | none => e.after.bindings = e.before.bindings
  | some (c, ok) => c.run e.before.bindings = (ok, e.after.bindings)

/-- A step of a call that stands where it may keeps every call so, and is atomic. -/
theorem Sound.advance (h : r.Sound past) (hcall : r.calls n = some (c, stage)) {result : Option (LatchCall × Bool)}
    (hstep : r.advance n c stage = (result, r')) :
    r'.Sound (past ++ [⟨r, .next n, result, r'⟩]) ∧ Atomic ⟨r, .next n, result, r'⟩ := by
  have hstands := h n c stage hcall
  cases stage with
  | called =>
    have hchecked := hstands.checked (by simp)
    obtain ⟨rfl, rfl⟩ := Prod.mk.inj hstep
    split_ifs with hfree
    · exact ⟨h.moved rfl (.inl hfree) (.of_open hchecked rfl (by simp) fun _ => rfl), rfl⟩
    · exact ⟨h.same, rfl⟩
  | lookingUp =>
    have hchecked := hstands.checked (by simp)
    obtain ⟨rfl, rfl⟩ := Prod.mk.inj hstep
    obtain ⟨hcalls, hbindings⟩ := ownerLock_frame r c.value.ownerName
    refine ⟨h.moved (congrArg (Function.update · n _) hcalls) (.inr (.inl (hstands.guard rfl)))
      (.of_open hchecked rfl (by simp) (by simp [LatchStage.hasGuard])), hbindings⟩
  | found lock =>
    have hchecked := hstands.checked (by simp)
    obtain ⟨rfl, rfl⟩ := Prod.mk.inj hstep
    split_ifs with hfree
    · exact ⟨h.moved rfl (.inr (.inr ⟨rfl, rfl⟩))
        (.of_open hchecked rfl (by simp) (by simp [LatchStage.hasGuard])), rfl⟩
    · exact ⟨h.same, rfl⟩
  | locked lock =>
    have hchecked := hstands.checked (by simp)
    obtain ⟨rfl, rfl⟩ := Prod.mk.inj hstep
    split_ifs with hfree
    · exact ⟨h.moved rfl (.inl hfree) (.of_open hchecked rfl (by simp) fun _ => rfl), rfl⟩
    · exact ⟨h.same, rfl⟩
  | guarded lock =>
    have hchecked := hstands.checked (by simp)
    obtain ⟨rfl, rfl⟩ := Prod.mk.inj hstep
    refine ⟨h.moved rfl (.inr (.inr ⟨rfl, rfl⟩)) ⟨fun _ => hstands.guard rfl, .inr hchecked, ?_, ?_⟩, rfl⟩
    · intro lock current hread
      cases hread
      rfl
    · intro ok hok
      cases hok
  | read lock current =>
    -- the table still holds what was read
    obtain rfl := hstands.current lock current rfl
    have hchecked := hstands.checked (by simp)
    have hrun := LatchCall.run_eq hchecked r.bindings
    simp only [LatchRegistry.advance] at hstep
    cases hdecide : c.decide (r.bindings c.value.ownerName) with
    | none =>
      rw [hdecide] at hstep hrun
      obtain ⟨rfl, rfl⟩ := Prod.mk.inj hstep
      exact ⟨h.moved rfl (.inr (.inl (hstands.guard rfl))) (.of_settled hchecked rfl (fun _ => hstands.guard rfl)
        ⟨_, List.mem_append_right _ (List.mem_singleton_self _), rfl, rfl⟩), hrun⟩
    | some entry =>
      rw [hdecide] at hstep hrun
      obtain ⟨rfl, rfl⟩ := Prod.mk.inj hstep
      exact ⟨h.moved rfl (.inr (.inl (hstands.guard rfl))) (.of_settled hchecked rfl (fun _ => hstands.guard rfl)
        ⟨_, List.mem_append_right _ (List.mem_singleton_self _), rfl, rfl⟩), hrun⟩
  | decided lock ok =>
    have hchecked := hstands.checked (by simp)
    obtain ⟨rfl, rfl⟩ := Prod.mk.inj hstep
    exact ⟨h.moved rfl (.inr (.inl (hstands.guard rfl)))
      (.of_settled hchecked rfl (by simp [LatchStage.hasGuard]) (hstands.did hchecked rfl)), rfl⟩
  | unguarded lock ok =>
    have hchecked := hstands.checked (by simp)
    obtain ⟨rfl, rfl⟩ := Prod.mk.inj hstep
    exact ⟨h.moved rfl (.inr (.inr ⟨rfl, rfl⟩))
      (.of_settled hchecked rfl (by simp [LatchStage.hasGuard]) (hstands.did hchecked rfl)), rfl⟩
  | returned ok =>
    obtain ⟨rfl, rfl⟩ := Prod.mk.inj hstep
    exact ⟨h.same, rfl⟩

/-- The step of any action. -/
theorem Sound.step (h : r.Sound past) {a : LatchAction} {result : Option (LatchCall × Bool)}
    (hstep : a.run r = (result, r')) : r'.Sound (past ++ [⟨r, a, result, r'⟩]) ∧ Atomic ⟨r, a, result, r'⟩ := by
  cases a with
  | call n c =>
    cases hcall : r.calls n with
    | none =>
      simp only [LatchAction.run, hcall] at hstep
      obtain ⟨rfl, rfl⟩ := Prod.mk.inj hstep
      refine ⟨h.moved rfl (.inr (.inr ⟨rfl, rfl⟩)) ?_, rfl⟩
      cases hchecked : c.value.checked with
      | none =>
        rw [if_pos rfl]
        refine ⟨by simp [LatchStage.hasGuard], .inl rfl, by simp, fun ok hok => ?_⟩
        obtain rfl := Option.some.inj hok
        exact .inl ⟨rfl, hchecked⟩
      | some b =>
        obtain rfl := RotationBinding.eq_of_checked hchecked
        rw [if_neg (by simp)]
        exact .of_open hchecked rfl (by simp) (by simp [LatchStage.hasGuard])
    | some call =>
      simp only [LatchAction.run, hcall] at hstep
      obtain ⟨rfl, rfl⟩ := Prod.mk.inj hstep
      exact ⟨h.same, rfl⟩
  | next n =>
    cases hcall : r.calls n with
    | none =>
      simp only [LatchAction.run, hcall] at hstep
      obtain ⟨rfl, rfl⟩ := Prod.mk.inj hstep
      exact ⟨h.same, rfl⟩
    | some call =>
      simp only [LatchAction.run, hcall] at hstep
      exact h.advance hcall hstep

theorem sound_new : new.Sound [] := fun _ _ _ hcall => by cases hcall

end LatchRegistry

open LatchRegistry

/-- Along every run each call stands where it may, and each step is atomic. -/
theorem LatchRun.sound {steps : List LatchStep} {r : LatchRegistry} (h : LatchRun steps r) :
    r.Sound steps ∧ ∀ e ∈ steps, Atomic e := by
  have hinv := Trace.keeps (I := fun past r => r.Sound past ∧ ∀ e ∈ past, Atomic e) h ⟨sound_new, by simp⟩ ?_
  · exact hinv
  · intro past r a result r' ih _ hstep
    obtain ⟨hsound, hatomic⟩ := ih.1.step hstep
    refine ⟨hsound, fun e he => ?_⟩
    rcases List.mem_append.1 he with he | he
    · exact ih.2 e he
    · obtain rfl := List.mem_singleton.1 he
      exact hatomic

end DecentWallet
