import Mathlib

/-! Runs of a system whose steps are calls: each call changes the state and returns something, and whether a
call can be made may depend on what earlier calls returned. A trace keeps every call with its result and the
states around it. -/

namespace DecentWallet

/-- A call, what it returned, and the states before and after it. -/
structure Entry (S A R : Type) where
  before : S
  action : A
  result : R
  after : S

variable {S A R : Type}

/-- What was added to `past`, oldest first, from the state `s₀` on. -/
inductive Trace (step : A → S → R × S) (Allowed : List (Entry S A R) → S → A → Prop) (past : List (Entry S A R))
    (s₀ : S) : List (Entry S A R) → S → Prop where
  | nil : Trace step Allowed past s₀ [] s₀
  | snoc {later : List (Entry S A R)} {s s' : S} {a : A} {r : R} : Trace step Allowed past s₀ later s →
      Allowed (past ++ later) s a → step a s = (r, s') → Trace step Allowed past s₀ (later ++ [⟨s, a, r, s'⟩]) s'

namespace Trace

variable {step : A → S → R × S} {Allowed : List (Entry S A R) → S → A → Prop}
  {past later : List (Entry S A R)} {s₀ s : S}

/-- What every allowed call keeps holds along a trace. -/
theorem keeps {I : List (Entry S A R) → S → Prop} (h : Trace step Allowed past s₀ later s) (h₀ : I past s₀)
    (hstep : ∀ past s a r s', I past s → Allowed past s a → step a s = (r, s') → I (past ++ [⟨s, a, r, s'⟩]) s') :
    I (past ++ later) s := by
  induction h with
  | nil => simpa using h₀
  | snoc _ hallowed hr ih =>
    rw [← List.append_assoc]
    exact hstep _ _ _ _ _ ih hallowed hr

/-- Every call of a trace was a step, and was allowed after calls that are in it too. -/
theorem of_mem (h : Trace step Allowed past s₀ later s) {e : Entry S A R} (he : e ∈ later) :
    step e.action e.before = (e.result, e.after) ∧ ∃ earlier ⊆ past ++ later, Allowed earlier e.before e.action := by
  induction h with
  | nil => cases he
  | snoc _ hallowed hr ih =>
    rcases List.mem_append.1 he with he | he
    · obtain ⟨hstep, earlier, hsub, hok⟩ := ih he
      exact ⟨hstep, earlier, fun x hx => by rw [← List.append_assoc]; exact List.mem_append_left _ (hsub hx), hok⟩
    · obtain rfl := List.mem_singleton.1 he
      exact ⟨hr, _, fun x hx => by rw [← List.append_assoc]; exact List.mem_append_left _ hx, hallowed⟩

/-- Up to any of its calls, a trace is one. -/
theorem of_concat (h : Trace step Allowed past s₀ later s) {before : List (Entry S A R)} {e : Entry S A R}
    (hpre : before ++ [e] <+: later) :
    Trace step Allowed past s₀ before e.before ∧ step e.action e.before = (e.result, e.after) := by
  induction h with
  | nil => simp at hpre
  | snoc htrace _ hr ih =>
    rcases List.prefix_concat_iff.1 hpre with heq | hpre
    · obtain ⟨rfl, he⟩ := List.append_inj' heq rfl
      obtain rfl := List.singleton_inj.1 he
      exact ⟨htrace, hr⟩
    · exact ih hpre

/-- The calls of a list, one after the other. -/
def calls (step : A → S → R × S) (s : S) (l : List A) : List (Entry S A R) × S :=
  l.foldl (fun t a => (t.1 ++ [⟨t.2, a, (step a t.2).1, (step a t.2).2⟩], (step a t.2).2)) ([], s)

theorem of_calls (step : A → S → R × S) (past : List (Entry S A R)) (s : S) (l : List A) :
    Trace step (fun _ _ _ => True) past s (calls step s l).1 (calls step s l).2 := by
  induction l using List.reverseRecOn with
  | nil => exact .nil
  | append_singleton l a ih =>
    rw [calls, List.foldl_append]
    exact ih.snoc trivial rfl

end Trace

/-- Pairs of a list, by the later of the two. -/
theorem pairwise_of_concat {α : Type} {r : α → α → Prop} {l : List α}
    (h : ∀ before x, before ++ [x] <+: l → ∀ y ∈ before, r y x) : l.Pairwise r := by
  induction l using List.reverseRecOn with
  | nil => exact .nil
  | append_singleton l x ih =>
    rw [List.pairwise_append]
    refine ⟨ih fun before y hpre => h before y (hpre.trans (List.prefix_append _ _)), List.pairwise_singleton _ _, ?_⟩
    intro y hy z hz
    rw [List.mem_singleton.1 hz]
    exact h l x (List.prefix_refl _) y hy

end DecentWallet
