import DecentWallet.Sanity.KotlinReplay

/-! The replay journal over whole histories: a digest is consumed at most once, and a call that consumes one leaves its
whole record behind. -/

namespace DecentWallet.Kotlin.Replay

variable {crc32 : Bytes → UInt32}

/-- A call that returns `true` was on its way out with it, and its last step leaves the journal alone. -/
theorem run_returned {a : Action} {s s' : Directory} {n : ℕ} {d : Bytes}
    (h : a.run crc32 s = (.returned n d true, s')) :
    s'.journal = s.journal ∧ ∃ c, s.calls n = some c ∧ c.stage = .unlocked (some true) ∧ c.digest = d := by
  cases a with
  | consume m process digest =>
    simp only [Action.run] at h
    split at h
    · split_ifs at h <;> cases h
    · cases h
  | fail m =>
    simp only [Action.run] at h
    split at h <;> cases h
  | crash process => cases h
  | advance m count =>
    simp only [Action.run] at h
    split at h
    · cases h
    · rename_i c hc
      unfold advance at h
      split at h
      case h_2 =>
        split at h
        · cases h
        · split_ifs at h <;> cases h
      case h_8 result hstage =>
        simp only [Prod.mk.injEq] at h
        obtain ⟨hev, rfl⟩ := h
        cases result with
        | none => cases hev
        | some result =>
          cases hev
          exact ⟨rfl, c, hc, hstage, rfl⟩
      case h_1 => split_ifs at h <;> cases h
      all_goals cases h

/-- What the journal shows when a call returns `true`: the call found whole records and added its own, after them and in
full, and all of it is still there, in its place. -/
def Consumed (crc32 : Bytes → UInt32) (before : List Step) (e : Step) (n : ℕ) (digest : Bytes) : Prop :=
  ∃ e₁ ∈ before, ∃ e₂ ∈ before, Opens e₁ n ∧ Accepts e₂ n ∧ e₁.before.journal.length % recordBytes = 0 ∧
    e₂.after.journal = e₁.before.journal ++ record crc32 digest ∧ e₂.after.journal <+: e.after.journal ∧
    wellFormedAt crc32 e.after.journal (e₁.before.journal.length / recordBytes) = true

theorem wellFormedAt_record {old digest tail : Bytes} (hold : old.length % recordBytes = 0)
    (h : digest.length = digestBytes) :
    wellFormedAt crc32 (old ++ record crc32 digest ++ tail) (old.length / recordBytes) = true := by
  have hplace : old.length / recordBytes * recordBytes = old.length :=
    Nat.div_mul_cancel (Nat.dvd_of_mod_eq_zero hold)
  unfold wellFormedAt
  rw [digestAt_record hold h, hplace, List.append_assoc, List.drop_left, ← length_record crc32 h,
    List.take_left, decide_eq_true_eq]

theorem Run.consumed {s₀ s : Directory} {steps before : List Step} {e : Step} (h : Run crc32 s₀ steps s)
    (hpre : before ++ [e] <+: steps) {n : ℕ} {d : Bytes} (hev : e.result = .returned n d true) :
    Consumed crc32 before e n d := by
  obtain ⟨htrace, hrun⟩ := h.2.of_concat hpre
  have hinv : Invariant crc32 before e.before := Run.invariant ⟨h.1, htrace⟩
  rw [hev] at hrun
  obtain ⟨hjournal, c, hc, hstage, rfl⟩ := run_returned hrun
  obtain ⟨e₁, he₁, e₂, he₂, ho, ha, hmod, heq, hrest⟩ := hinv.recorded n c hc (by rw [hstage]; rfl)
  rw [← hjournal] at hrest
  refine ⟨e₁, he₁, e₂, he₂, ho, ha, hmod, heq, hrest, ?_⟩
  obtain ⟨tail, htail⟩ := hrest
  rw [← htail, heq]
  exact wellFormedAt_record hmod (hinv.digest n c hc (by simp [hstage]))

/-- Over every history of calls, writes that stop, exceptions and crashes: no two calls return `true` for one digest; a
call that returns `true` has added exactly its record to the journal it found; and a call that found a journal with a
torn record never returns `true`. -/
theorem replay_journal (crc32 : Bytes → UInt32) (s₀ s : Directory) (steps : List Step) (h : Run crc32 s₀ steps s) :
    (steps.Pairwise fun e e' => ∀ n m d, e.result = .returned n d true → e'.result ≠ .returned m d true) ∧
    (∀ before e, before ++ [e] <+: steps → ∀ n d, e.result = .returned n d true → Consumed crc32 before e n d) ∧
    ∀ e ∈ steps, ∀ n, Opens e n → e.before.journal.length % recordBytes ≠ 0 →
      ∀ e' ∈ steps, ∀ d, e'.result ≠ .returned n d true := by
  refine ⟨pairwise_of_concat fun before e' hpre e he n m d hev hev' => ?_,
    fun before e hpre n d hev => h.consumed hpre hev, fun e he n ho htorn e' he' d hev => ?_⟩
  · obtain ⟨htrace, hrun⟩ := h.2.of_concat hpre
    have hinv : Invariant crc32 before e'.before := Run.invariant ⟨h.1, htrace⟩
    obtain ⟨c, hc, hended, hd⟩ := hinv.returned e he n d hev
    rw [hev'] at hrun
    obtain ⟨-, c', hc', hleaving, hd'⟩ := run_returned hrun
    obtain rfl := hinv.unique n m c c' hc hc' (by rw [hended]; rfl) (by rw [hleaving]; rfl) (hd.trans hd'.symm)
    rw [hc, Option.some.injEq] at hc'
    rw [hc', hleaving] at hended
    cases hended
  · obtain ⟨before, after, rfl⟩ := List.append_of_mem he'
    obtain ⟨e₁, he₁, -, -, ho₁, -, hmod, -⟩ := h.consumed
      (show before ++ [e'] <+: before ++ e' :: after from ⟨after, by simp⟩) hev
    have hsame := h.invariant.once e he e₁ (List.mem_append_left _ he₁) n ho ho₁
    rw [hsame] at htorn
    exact htorn hmod

namespace Twice

def digest : Bytes := List.replicate 32 7

/-- CRC-32 of the one record that is written. -/
def checksum (b : Bytes) : UInt32 := if b = magic ++ digest then 0xa4ae0f9c else 0

/-- A call on an empty journal takes both locks, finds no record, and writes its own in two pieces; then a call of
another process finds it. -/
def actions : List Action :=
  [.consume 0 0 digest, .advance 0 0, .advance 0 0, .advance 0 0, .advance 0 0, .advance 0 13, .advance 0 27,
    .advance 0 0, .advance 0 0, .advance 0 0, .consume 1 1 digest, .advance 1 0, .advance 1 0, .advance 1 0,
    .advance 1 0, .advance 1 0, .advance 1 0]

def empty : Directory := ⟨[], none, fun _ => none, fun _ => none⟩

def steps : List Step := (Trace.calls (Action.run checksum) empty actions).1

theorem run : Run checksum empty steps (Trace.calls (Action.run checksum) empty actions).2 :=
  ⟨fun _ => rfl, Trace.of_calls _ _ _ _⟩

end Twice

open Twice in
theorem replay_journal_first : ∃ steps s, Run checksum empty steps s ∧
    (∃ before e, before ++ [e] <+: steps ∧ e.result = .returned 0 digest true ∧ Consumed checksum before e 0 digest) ∧
    ∃ e ∈ steps, e.result = .returned 1 digest false := by
  have hfirst : (steps[9]?).map Entry.result = some (.returned 0 digest true) := by decide +kernel
  have hsecond : .returned 1 digest false ∈ steps.map Entry.result := by decide +kernel
  obtain ⟨e, he, hresult⟩ := Option.map_eq_some_iff.1 hfirst
  have hprefix : steps.take 9 ++ [e] <+: steps := by
    have htake : steps.take 10 = steps.take 9 ++ [e] := by rw [List.take_add_one, he]; rfl
    rw [← htake]
    exact List.take_prefix _ _
  refine ⟨steps, _, run, ⟨_, e, hprefix, hresult, (replay_journal _ _ _ _ run).2.1 _ _ hprefix 0 _ hresult⟩, ?_⟩
  exact List.mem_map.1 hsecond

end DecentWallet.Kotlin.Replay
