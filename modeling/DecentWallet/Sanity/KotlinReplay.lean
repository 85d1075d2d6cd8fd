import DecentWallet.Spec.KotlinReplay

/-! What one step of the replay journal keeps. Only the holder of the file lock writes, and it only appends, so the
record of a digest that was consumed stays where it is, and every later call that reads all records finds it. -/

namespace DecentWallet.Kotlin.Replay

variable {crc32 : Bytes → UInt32}

/-! ### Records -/

theorem length_record (crc32 : Bytes → UInt32) {digest : Bytes} (h : digest.length = digestBytes) :
    (record crc32 digest).length = recordBytes := by
  simp [record, magic, putInt, h, digestBytes, recordBytes]

/-- A record that starts at a whole number of records is found there. -/
theorem digestAt_record {old digest tail : Bytes} (hold : old.length % recordBytes = 0)
    (h : digest.length = digestBytes) :
    digestAt (old ++ record crc32 digest ++ tail) (old.length / recordBytes) = digest := by
  have hplace : old.length / recordBytes * recordBytes = old.length :=
    Nat.div_mul_cancel (Nat.dvd_of_mod_eq_zero hold)
  unfold digestAt
  rw [hplace, List.append_assoc, List.drop_left]
  simp [record, magic, ← h]

theorem writeAt_end (content bytes : Bytes) : writeAt content content.length bytes = content ++ bytes := by
  simp [writeAt]

/-! ### Stages -/

def Stage.holdsLock : Stage → Bool
  | .locked => true
  | .scanning _ _ => true
  | .appending _ _ => true
  | .written => true
  | .leaving _ => true
  | _ => false

/-- The call is on its way out with `true`, or has returned it. -/
def Stage.accepted : Stage → Bool
  | .leaving result => result = some true
  | .unlocked result => result = some true
  | .ended result => result = some true
  | _ => false

/-- The call will not look at the journal's size any more. -/
def Stage.opened : Stage → Bool
  | .called => false
  | .inProcess => false
  | .locked => false
  | _ => true

/-- The step in which call `n` looks at the journal's size. -/
def Opens (e : Step) (n : ℕ) : Prop :=
  ∃ count c, e.action = .advance n count ∧ e.before.calls n = some c ∧ c.stage = .locked

/-- The step in which call `n` has its record on the disk. -/
def Accepts (e : Step) (n : ℕ) : Prop :=
  ∃ count c, e.action = .advance n count ∧ e.before.calls n = some c ∧ c.stage = .written

/-! ### What holds along a history -/

def Opened (past : List Step) (n : ℕ) (journal : Bytes) : Prop := ∃ e ∈ past, Opens e n ∧ e.before.journal = journal

/-- No call has consumed the digest. -/
def Fresh (s : Directory) (digest : Bytes) : Prop :=
  ∀ n c, s.calls n = some c → c.stage.accepted = true → c.digest ≠ digest

variable (crc32) in
/-- What a call that holds the file lock knows about the journal. -/
def Working (past : List Step) (s : Directory) (n : ℕ) (c : Consume) : Prop :=
  match c.stage with
  | .scanning size index =>
    size = s.journal.length ∧ size % recordBytes = 0 ∧ Opened past n s.journal ∧
      ∀ j < index, digestAt s.journal j ≠ c.digest
  | .appending size rest => ∃ old done, s.journal = old ++ done ∧ done ++ rest = record crc32 c.digest ∧
      old.length = size ∧ size % recordBytes = 0 ∧ Opened past n old ∧ Fresh s c.digest
  | .written => ∃ old, s.journal = old ++ record crc32 c.digest ∧ old.length % recordBytes = 0 ∧ Opened past n old ∧
      Fresh s c.digest
  | _ => True

variable (crc32) in
/-- The call found a journal of whole records and left it with one more, and nothing was taken away since. -/
def Recorded (past : List Step) (s : Directory) (n : ℕ) (digest : Bytes) : Prop :=
  ∃ e₁ ∈ past, ∃ e₂ ∈ past, Opens e₁ n ∧ Accepts e₂ n ∧ e₁.before.journal.length % recordBytes = 0 ∧
    e₂.after.journal = e₁.before.journal ++ record crc32 digest ∧ e₂.after.journal <+: s.journal

variable (crc32) in
structure Invariant (past : List Step) (s : Directory) : Prop where
  exclusive : ∀ n c, s.calls n = some c → c.stage.holdsLock = true → s.fileLock = some n
  digest : ∀ n c, s.calls n = some c → c.stage ≠ .ended none → c.digest.length = digestBytes
  working : ∀ n c, s.calls n = some c → Working crc32 past s n c
  recorded : ∀ n c, s.calls n = some c → c.stage.accepted = true → Recorded crc32 past s n c.digest
  unique : ∀ n m c c', s.calls n = some c → s.calls m = some c' → c.stage.accepted = true → c'.stage.accepted = true →
    c.digest = c'.digest → n = m
  returned : ∀ e ∈ past, ∀ n d, e.result = .returned n d true →
    ∃ c, s.calls n = some c ∧ c.stage = .ended (some true) ∧ c.digest = d
  opened : ∀ e ∈ past, ∀ n, Opens e n → ∃ c, s.calls n = some c ∧ c.stage.opened = true
  once : ∀ e ∈ past, ∀ e' ∈ past, ∀ n, Opens e n → Opens e' n → e.before.journal = e'.before.journal

theorem Opened.mono {past : List Step} {n : ℕ} {journal : Bytes} (h : Opened past n journal) (e : Step) :
    Opened (past ++ [e]) n journal := by
  obtain ⟨e', he', h⟩ := h
  exact ⟨e', List.mem_append_left _ he', h⟩

theorem Recorded.mono {past : List Step} {s s' : Directory} {n : ℕ} {digest : Bytes}
    (h : Recorded crc32 past s n digest) (e : Step) (hj : s.journal <+: s'.journal) :
    Recorded crc32 (past ++ [e]) s' n digest := by
  obtain ⟨e₁, he₁, e₂, he₂, ho, ha, hlen, heq, hpre⟩ := h
  exact ⟨e₁, List.mem_append_left _ he₁, e₂, List.mem_append_left _ he₂, ho, ha, hlen, heq, hpre.trans hj⟩

/-- As long as nobody else writes or consumes a digest. -/
theorem Working.mono {past : List Step} {s s' : Directory} {n : ℕ} {c : Consume}
    (h : Working crc32 past s n c) (e : Step) (hj : s'.journal = s.journal)
    (hf : ∀ d, Fresh s d → Fresh s' d) : Working crc32 (past ++ [e]) s' n c := by
  unfold Working at h ⊢
  split
  · rename_i size index hstage
    rw [hstage] at h
    obtain ⟨hsize, hmod, ho, hscan⟩ := h
    rw [hj]
    exact ⟨hsize, hmod, ho.mono e, hscan⟩
  · rename_i size rest hstage
    rw [hstage] at h
    obtain ⟨old, done, heq, hrec, hlen, hmod, ho, hfresh⟩ := h
    exact ⟨old, done, hj.trans heq, hrec, hlen, hmod, ho.mono e, hf _ hfresh⟩
  · rename_i hstage
    rw [hstage] at h
    obtain ⟨old, heq, hmod, ho, hfresh⟩ := h
    exact ⟨old, hj.trans heq, hmod, ho.mono e, hf _ hfresh⟩
  · trivial

/-! ### One step -/

/-- A call goes from one stage to the next: `s'` is `s` but for that call, the journal and the locks. -/
structure Moves (s s' : Directory) (n : ℕ) (c : Consume) (stage : Stage) : Prop where
  call : s.calls n = some c
  calls : s'.calls = Function.update s.calls n (some { c with stage := stage })
  /-- Without the file lock a call leaves the journal alone and accepts nothing new. -/
  outside : c.stage.holdsLock = true ∨ s'.journal = s.journal ∧ (s'.fileLock = s.fileLock ∨ s.fileLock = none) ∧
    (stage.accepted = true → c.stage.accepted = true)
  journal : s.journal <+: s'.journal
  inside : stage.holdsLock = true → s'.fileLock = some n
  live : c.stage ≠ .ended (some true) ∧ (c.stage = .ended none → stage = .ended none)
  opened : c.stage.opened = true → stage.opened = true

namespace Moves

variable {past : List Step} {s s' : Directory} {n : ℕ} {c : Consume} {stage : Stage}

theorem self (h : Moves s s' n c stage) : s'.calls n = some { c with stage := stage } := by
  rw [h.calls, Function.update_self]

theorem other (h : Moves s s' n c stage) {m : ℕ} (hm : m ≠ n) : s'.calls m = s.calls m := by
  rw [h.calls, Function.update_of_ne hm]

theorem cases (h : Moves s s' n c stage) {m : ℕ} {c' : Consume} (hc : s'.calls m = some c') :
    m = n ∧ c' = { c with stage := stage } ∨ m ≠ n ∧ s.calls m = some c' := by
  by_cases hm : m = n
  · subst hm
    rw [h.self, Option.some.injEq] at hc
    exact .inl ⟨rfl, hc.symm⟩
  · rw [h.other hm] at hc
    exact .inr ⟨hm, hc⟩

/-- Another call that holds the file lock sees nothing of the step. -/
theorem unseen (h : Moves s s' n c stage) (hinv : Invariant crc32 past s) {m : ℕ} {c' : Consume} (hm : m ≠ n)
    (hc : s.calls m = some c') (hlock : c'.stage.holdsLock = true) :
    s'.journal = s.journal ∧ s'.fileLock = some m ∧ ∀ d, Fresh s d → Fresh s' d := by
  have hheld := hinv.exclusive m c' hc hlock
  rcases h.outside with hin | ⟨hj, hl, ha⟩
  · have := hinv.exclusive n c h.call hin
    rw [hheld, Option.some.injEq] at this
    exact absurd this hm
  · refine ⟨hj, ?_, fun d hf k c'' hk hacc => ?_⟩
    · rcases hl with hl | hl
      · rw [hl, hheld]
      · rw [hl] at hheld
        cases hheld
    · rcases h.cases hk with ⟨rfl, rfl⟩ | ⟨-, hk⟩
      · exact hf k c h.call (ha hacc)
      · exact hf k c'' hk hacc

end Moves

/-- A step of a call keeps the invariant if it is right about that call. -/
theorem Invariant.move {past : List Step} {e : Step} {n : ℕ} {c : Consume} (h : Invariant crc32 past e.before)
    (stage : Stage) (hm : Moves e.before e.after n c stage)
    (hworking : Working crc32 (past ++ [e]) e.after n { c with stage := stage })
    (haccepted : stage.accepted = true → c.stage.accepted = true ∨
      Fresh e.before c.digest ∧ Recorded crc32 (past ++ [e]) e.after n c.digest)
    (hreturned : ∀ m d, e.result = .returned m d true → m = n ∧ d = c.digest ∧ stage = .ended (some true))
    (hopens : ∀ m, Opens e m → m = n ∧ c.stage.opened = false ∧ stage.opened = true) :
    Invariant crc32 (past ++ [e]) e.after where
  exclusive m c' hc hlock := by
    rcases hm.cases hc with ⟨rfl, rfl⟩ | ⟨hne, hc⟩
    · exact hm.inside hlock
    · exact (hm.unseen h hne hc hlock).2.1
  digest m c' hc hended := by
    rcases hm.cases hc with ⟨rfl, rfl⟩ | ⟨hne, hc⟩
    · exact h.digest m c hm.call fun hnone => hended (hm.live.2 hnone)
    · exact h.digest m c' hc hended
  working m c' hc := by
    rcases hm.cases hc with ⟨rfl, rfl⟩ | ⟨hne, hc⟩
    · exact hworking
    · by_cases hlock : c'.stage.holdsLock = true
      · obtain ⟨hj, -, hf⟩ := hm.unseen h hne hc hlock
        exact (h.working m c' hc).mono e hj hf
      · unfold Working
        split <;> first
          | trivial
          | (rename_i hstage; rw [hstage] at hlock; exact absurd rfl hlock)
  recorded m c' hc hacc := by
    rcases hm.cases hc with ⟨rfl, rfl⟩ | ⟨hne, hc⟩
    · rcases haccepted hacc with hold | ⟨-, hnew⟩
      · exact (h.recorded m c hm.call hold).mono e hm.journal
      · exact hnew
    · exact (h.recorded m c' hc hacc).mono e hm.journal
  unique m m' c₁ c₂ h₁ h₂ ha₁ ha₂ hd := by
    rcases hm.cases h₁ with ⟨rfl, rfl⟩ | ⟨hne₁, h₁⟩ <;> rcases hm.cases h₂ with ⟨rfl, rfl⟩ | ⟨hne₂, h₂⟩
    · rfl
    · rcases haccepted ha₁ with hold | ⟨hfresh, -⟩
      · exact h.unique m m' c c₂ hm.call h₂ hold ha₂ hd
      · exact absurd hd.symm (hfresh m' c₂ h₂ ha₂)
    · rcases haccepted ha₂ with hold | ⟨hfresh, -⟩
      · exact h.unique m m' c₁ c h₁ hm.call ha₁ hold hd
      · exact absurd hd (hfresh m c₁ h₁ ha₁)
    · exact h.unique m m' c₁ c₂ h₁ h₂ ha₁ ha₂ hd
  returned e' he' m d hev := by
    rcases List.mem_append.1 he' with he' | he'
    · obtain ⟨c', hc, hstage, hd⟩ := h.returned e' he' m d hev
      by_cases hmn : m = n
      · subst hmn
        rw [hm.call, Option.some.injEq] at hc
        exact absurd (hc ▸ hstage) hm.live.1
      · exact ⟨c', by rw [hm.other hmn, hc], hstage, hd⟩
    · obtain rfl := List.mem_singleton.1 he'
      obtain ⟨rfl, rfl, hstage⟩ := hreturned m d hev
      exact ⟨_, hm.self, hstage, rfl⟩
  opened e' he' m ho := by
    rcases List.mem_append.1 he' with he' | he'
    · obtain ⟨c', hc, hstage⟩ := h.opened e' he' m ho
      by_cases hmn : m = n
      · subst hmn
        rw [hm.call, Option.some.injEq] at hc
        exact ⟨_, hm.self, hm.opened (hc ▸ hstage)⟩
      · exact ⟨c', by rw [hm.other hmn, hc], hstage⟩
    · obtain rfl := List.mem_singleton.1 he'
      obtain ⟨rfl, -, hstage⟩ := hopens m ho
      exact ⟨_, hm.self, hstage⟩
  once e₁ he₁ e₂ he₂ m ho₁ ho₂ := by
    -- a call that opens the journal now has not opened it before
    have hfirst : Opens e m → ∀ e' ∈ past, ¬Opens e' m := by
      intro ho e' he' ho'
      obtain ⟨rfl, hnot, -⟩ := hopens m ho
      obtain ⟨c', hc, hstage⟩ := h.opened e' he' m ho'
      rw [hm.call, Option.some.injEq] at hc
      rw [hc, hstage] at hnot
      cases hnot
    rcases List.mem_append.1 he₁ with hp₁ | hl₁ <;> rcases List.mem_append.1 he₂ with hp₂ | hl₂
    · exact h.once e₁ hp₁ e₂ hp₂ m ho₁ ho₂
    · obtain rfl := List.mem_singleton.1 hl₂
      exact absurd ho₁ (hfirst ho₂ e₁ hp₁)
    · obtain rfl := List.mem_singleton.1 hl₁
      exact absurd ho₂ (hfirst ho₁ e₂ hp₂)
    · rw [List.mem_singleton.1 hl₁, List.mem_singleton.1 hl₂]

/-- Calls may start, stop or stay as they are; nothing is written. -/
structure Calms (s s' : Directory) : Prop where
  journal : s'.journal = s.journal
  calls : ∀ m c, s'.calls m = some c → s.calls m = some c ∨
    c.stage.holdsLock = false ∧ c.stage.accepted = false ∧ (c.stage ≠ .ended none → c.digest.length = digestBytes)
  fileLock : ∀ m c, s'.calls m = some c → c.stage.holdsLock = true → s.fileLock = some m → s'.fileLock = some m
  kept : ∀ m c, s.calls m = some c → ∃ c', s'.calls m = some c' ∧ c'.digest = c.digest ∧
    (c.stage = .ended (some true) → c'.stage = .ended (some true)) ∧ (c.stage.opened = true → c'.stage.opened = true)

theorem Calms.refl (s : Directory) : Calms s s where
  journal := rfl
  calls _ _ h := .inl h
  fileLock _ _ _ _ h := h
  kept _ c h := ⟨c, h, rfl, id, id⟩

theorem Invariant.calm {past : List Step} {e : Step} (h : Invariant crc32 past e.before) (hc : Calms e.before e.after)
    (hreturned : ∀ m d, e.result ≠ .returned m d true) (hopens : ∀ m, ¬Opens e m) :
    Invariant crc32 (past ++ [e]) e.after := by
  have hpast : ∀ {P : Step → Prop}, ¬P e → ∀ e' ∈ past ++ [e], P e' → e' ∈ past := by
    intro P hP e' he' hp
    rcases List.mem_append.1 he' with he' | he'
    · exact he'
    · rw [List.mem_singleton.1 he'] at hp
      exact absurd hp hP
  have haccepted : ∀ m c, e.after.calls m = some c → c.stage.accepted = true → e.before.calls m = some c := by
    intro m c hm hacc
    rcases hc.calls m c hm with hm | ⟨-, hnot, -⟩
    · exact hm
    · rw [hnot] at hacc
      cases hacc
  have hfresh : ∀ d, Fresh e.before d → Fresh e.after d := fun d hf m c hm hacc =>
    hf m c (haccepted m c hm hacc) hacc
  refine ⟨fun m c hm hlock => ?_, fun m c hm hended => ?_, fun m c hm => ?_, fun m c hm hacc => ?_,
    fun m m' c c' hm hm' ha ha' hd => ?_, fun e' he' m d hev => ?_, fun e' he' m ho => ?_,
    fun e₁ he₁ e₂ he₂ m ho₁ ho₂ => ?_⟩
  · rcases hc.calls m c hm with hold | ⟨hnot, -, -⟩
    · exact hc.fileLock m c hm hlock (h.exclusive m c hold hlock)
    · rw [hnot] at hlock
      cases hlock
  · rcases hc.calls m c hm with hold | ⟨-, -, hd⟩
    · exact h.digest m c hold hended
    · exact hd hended
  · rcases hc.calls m c hm with hold | ⟨hnot, -, -⟩
    · exact (h.working m c hold).mono e hc.journal hfresh
    · unfold Working
      split <;> first
        | trivial
        | (rename_i hstage; rw [hstage] at hnot; cases hnot)
  · exact (h.recorded m c (haccepted m c hm hacc) hacc).mono e (by rw [hc.journal])
  · exact h.unique m m' c c' (haccepted m c hm ha) (haccepted m' c' hm' ha') ha ha' hd
  · obtain ⟨c, hm, hstage, hd⟩ := h.returned e' (hpast (P := fun e => e.result = .returned m d true) (hreturned m d) e'
      he' hev) m d hev
    obtain ⟨c', hm', hd', hended, -⟩ := hc.kept m c hm
    exact ⟨c', hm', hended hstage, hd'.trans hd⟩
  · obtain ⟨c, hm, hstage⟩ := h.opened e' (hpast (P := fun e => Opens e m) (hopens m) e' he' ho) m ho
    obtain ⟨c', hm', -, -, hopened⟩ := hc.kept m c hm
    exact ⟨c', hm', hopened hstage⟩
  · have hp := hpast (P := fun e => Opens e m) (hopens m)
    exact h.once e₁ (hp e₁ he₁ ho₁) e₂ (hp e₂ he₂ ho₂) m ho₁ ho₂

theorem Stage.afterCrash_cases (stage : Stage) :
    stage.afterCrash = stage ∨ stage.afterCrash = .crashed ∧ ∀ result, stage ≠ .ended result := by
  cases stage with
  | ended result => exact .inl rfl
  | _ => exact .inr ⟨rfl, nofun⟩

theorem crash_calms (process : ℕ) {past : List Step} {s : Directory} (h : Invariant crc32 past s) :
    Calms s (crash process s) where
  journal := rfl
  calls m c hm := by
    simp only [crash, Option.map_eq_some_iff] at hm
    obtain ⟨c', hm, rfl⟩ := hm
    split_ifs with hp
    · rcases c'.stage.afterCrash_cases with hstage | ⟨hstage, hne⟩
      · rw [hstage]
        exact .inl hm
      · rw [hstage]
        exact .inr ⟨rfl, rfl, fun _ => h.digest m c' hm (hne none)⟩
    · exact .inl hm
  fileLock m c hm hlock hheld := by
    simp only [crash, Option.map_eq_some_iff] at hm
    obtain ⟨c', hm, rfl⟩ := hm
    by_cases hp : c'.process = process
    · -- a call of the process that crashed holds nothing
      rw [if_pos hp] at hlock
      exact absurd hlock (by cases c'.stage <;> simp [Stage.afterCrash, Stage.holdsLock])
    · simp [crash, hheld, hm, hp]
  kept m c hm := by
    refine ⟨if c.process = process then { c with stage := c.stage.afterCrash } else c,
      by simp only [crash, hm, Option.map_some], ?_⟩
    split_ifs with hp
    · rcases c.stage.afterCrash_cases with hstage | ⟨hstage, hne⟩
      · exact ⟨rfl, fun he => by rw [hstage, he], fun ho => by rw [hstage, ho]⟩
      · exact ⟨rfl, fun he => absurd he (hne _), fun _ => by rw [hstage]; rfl⟩
    · exact ⟨rfl, id, id⟩

theorem start_calms {s : Directory} {n : ℕ} {c : Consume} {stage : Stage} (hn : s.calls n = none)
    (hstage : stage = .ended none ∨ stage = .called ∧ c.digest.length = digestBytes) : Calms s (s.put n c stage) where
  journal := rfl
  calls m c' hm := by
    by_cases hmn : m = n
    · subst hmn
      simp only [Directory.put, Function.update_self, Option.some.injEq] at hm
      subst hm
      rcases hstage with rfl | ⟨rfl, hd⟩
      · exact .inr ⟨rfl, rfl, fun hne => absurd rfl hne⟩
      · exact .inr ⟨rfl, rfl, fun _ => hd⟩
    · simp only [Directory.put, Function.update_of_ne hmn] at hm
      exact .inl hm
  fileLock m c' _ _ hheld := hheld
  kept m c' hm := by
    have hmn : m ≠ n := by
      rintro rfl
      rw [hn] at hm
      cases hm
    exact ⟨c', by simpa only [Directory.put, Function.update_of_ne hmn] using hm, rfl, id, id⟩

/-! ### The steps of a call -/

theorem Opens.advance {s s' : Directory} {n m count : ℕ} {c : Consume} {ev : Event} (hc : s.calls n = some c)
    (h : Opens ⟨s, .advance n count, ev, s'⟩ m) : m = n ∧ c.stage = .locked := by
  obtain ⟨_, c', ha, hc', hstage⟩ := h
  cases ha
  rw [hc, Option.some.injEq] at hc'
  exact ⟨rfl, hc' ▸ hstage⟩

section

variable {past : List Step} {s : Directory} {n count : ℕ} {c : Consume}

/-- A step after which the call claims nothing about the journal that it did not claim before. -/
theorem Invariant.pass (h : Invariant crc32 past s) {s' : Directory} {a : Action} {ev : Event} (stage : Stage)
    (hm : Moves s s' n c stage) (hworking : ∀ past s n, Working crc32 past s n { c with stage := stage })
    (haccepted : stage.accepted = true → c.stage.accepted = true)
    (hreturned : ∀ m d, ev = .returned m d true → m = n ∧ d = c.digest ∧ stage = .ended (some true))
    (hopens : ∀ m, Opens ⟨s, a, ev, s'⟩ m → m = n ∧ c.stage.opened = false ∧ stage.opened = true) :
    Invariant crc32 (past ++ [⟨s, a, ev, s'⟩]) s' :=
  Invariant.move (e := ⟨s, a, ev, s'⟩) h stage hm (hworking _ _ _) (fun hacc => .inl (haccepted hacc)) hreturned hopens

theorem Invariant.stay (h : Invariant crc32 past s) {a : Action} (hopens : ∀ m, ¬Opens ⟨s, a, .silent, s⟩ m) :
    Invariant crc32 (past ++ [⟨s, a, .silent, s⟩]) s :=
  Invariant.calm (e := ⟨s, a, .silent, s⟩) h (.refl s) nofun hopens

theorem Invariant.step_open (h : Invariant crc32 past s) (hc : s.calls n = some c) (hstage : c.stage = .locked) :
    Invariant crc32 (past ++ [⟨s, .advance n count, .silent, s.put n c (openJournal s.journal)⟩])
      (s.put n c (openJournal s.journal)) := by
  have hlock : s.fileLock = some n := h.exclusive n c hc (by rw [hstage]; rfl)
  have hopens : Opens ⟨s, .advance n count, .silent, s.put n c (openJournal s.journal)⟩ n :=
    ⟨count, c, rfl, hc, hstage⟩
  have hnext : (openJournal s.journal).holdsLock = true ∧ (openJournal s.journal).opened = true ∧
      (openJournal s.journal).accepted = false := by
    unfold openJournal
    split_ifs <;> exact ⟨rfl, rfl, rfl⟩
  refine Invariant.move (e := ⟨s, .advance n count, .silent, s.put n c (openJournal s.journal)⟩) h
    (openJournal s.journal) ⟨hc, rfl, .inl (by rw [hstage]; rfl), List.prefix_refl _, fun _ => hlock,
      by simp [hstage], fun _ => hnext.2.1⟩ ?_ (fun hacc => by rw [hnext.2.2] at hacc; cases hacc) nofun
    fun m ho => ⟨(ho.advance hc).1, by rw [hstage]; rfl, hnext.2.1⟩
  unfold openJournal
  split_ifs with hbad
  · trivial
  · rw [not_or, not_not] at hbad
    exact ⟨rfl, hbad.1, ⟨_, List.mem_append_right _ (List.mem_singleton_self _), hopens, rfl⟩, nofun⟩

/-- The digest of a call that consumed it stands at some place among the whole records of the journal. -/
theorem Invariant.digest_found (h : Invariant crc32 past s) {m : ℕ} {c : Consume} (hc : s.calls m = some c)
    (hacc : c.stage.accepted = true) : ∃ j < s.journal.length / recordBytes, digestAt s.journal j = c.digest := by
  obtain ⟨e₁, -, e₂, -, -, -, hmod, heq, tail, htail⟩ := h.recorded m c hc hacc
  have hlen := h.digest m c hc (by rintro hnone; rw [hnone] at hacc; cases hacc)
  have hrecord := length_record crc32 hlen
  rw [heq] at htail
  refine ⟨e₁.before.journal.length / recordBytes, ?_, ?_⟩
  · rw [← htail]
    simp only [List.length_append, hrecord]
    simp only [recordBytes] at hmod ⊢
    omega
  · rw [← htail]
    exact digestAt_record hmod hlen

theorem fresh_put {s' : Directory} {stage : Stage} {digest : Bytes} (hc : s.calls n = some c)
    (hcalls : s'.calls = (s.put n c stage).calls) (hstage : stage.accepted = true → c.stage.accepted = true)
    (h : Fresh s digest) : Fresh s' digest := by
  intro m c' hm hacc
  rw [hcalls] at hm
  by_cases hmn : m = n
  · subst hmn
    simp only [Directory.put, Function.update_self, Option.some.injEq] at hm
    subst hm
    exact h m c hc (hstage hacc)
  · simp only [Directory.put, Function.update_of_ne hmn] at hm
    exact h m c' hm hacc

theorem Invariant.step_scan (h : Invariant crc32 past s) {size index : ℕ} (hc : s.calls n = some c)
    (hstage : c.stage = .scanning size index) :
    Invariant crc32 (past ++ [⟨s, .advance n count, .silent, s.put n c (scan crc32 s.journal c.digest size index)⟩])
      (s.put n c (scan crc32 s.journal c.digest size index)) := by
  have hlock : s.fileLock = some n := h.exclusive n c hc (by rw [hstage]; rfl)
  have hwork := h.working n c hc
  simp only [Working, hstage] at hwork
  obtain ⟨hsize, hmod, ho, hscan⟩ := hwork
  have hnext : (scan crc32 s.journal c.digest size index).holdsLock = true ∧
      (scan crc32 s.journal c.digest size index).opened = true ∧
      (scan crc32 s.journal c.digest size index).accepted = false := by
    unfold scan
    split_ifs <;> exact ⟨rfl, rfl, rfl⟩
  refine Invariant.move (e := ⟨s, .advance n count, .silent, s.put n c (scan crc32 s.journal c.digest size index)⟩) h
    (scan crc32 s.journal c.digest size index) ⟨hc, rfl, .inl (by rw [hstage]; rfl), List.prefix_refl _,
      fun _ => hlock, by simp [hstage], fun _ => hnext.2.1⟩ ?_ (fun hacc => by rw [hnext.2.2] at hacc; cases hacc) nofun
    fun m hopens => absurd (hopens.advance hc).2 (by simp [hstage])
  unfold scan
  split_ifs with hindex hformed hdigest hfull
  · trivial
  · trivial
  · refine ⟨hsize, hmod, ho.mono _, fun j hj => ?_⟩
    rcases Nat.lt_succ_iff_lt_or_eq.1 hj with hj | rfl
    · exact hscan j hj
    · exact hdigest
  · trivial
  · -- every record was read, so a call that consumed the digest would have been found
    have hfresh : Fresh s c.digest := by
      intro m c' hm hacc hd
      obtain ⟨j, hj, hat⟩ := h.digest_found hm hacc
      exact hscan j (by rw [← hsize] at hj; omega) (hat.trans hd)
    exact ⟨s.journal, [], by simp [Directory.put], rfl, hsize.symm, hmod, ho.mono _, fresh_put hc rfl nofun hfresh⟩

theorem Invariant.step_write (h : Invariant crc32 past s) {size : ℕ} {rest : Bytes} (hc : s.calls n = some c)
    (hstage : c.stage = .appending size rest) :
    Invariant crc32 (past ++ [⟨s, .advance n count, .silent, { s.put n c (wrote size rest count) with
        journal := writeAt s.journal (size + (recordBytes - rest.length)) (rest.take count) }⟩])
      { s.put n c (wrote size rest count) with
        journal := writeAt s.journal (size + (recordBytes - rest.length)) (rest.take count) } := by
  have hlock : s.fileLock = some n := h.exclusive n c hc (by rw [hstage]; rfl)
  have hwork := h.working n c hc
  simp only [Working, hstage] at hwork
  obtain ⟨old, done, hjournal, hrecord, hsize, hmod, ho, hfresh⟩ := hwork
  have hlen : done.length + rest.length = recordBytes := by
    rw [← List.length_append, hrecord, length_record crc32 (h.digest n c hc (by simp [hstage]))]
  -- the channel stands at the end of the journal
  have hwrite : writeAt s.journal (size + (recordBytes - rest.length)) (rest.take count) =
      old ++ (done ++ rest.take count) := by
    rw [← List.append_assoc, ← hjournal, ← writeAt_end]
    congr 1
    rw [hjournal, List.length_append]
    omega
  have hnext : (wrote size rest count).holdsLock = true ∧ (wrote size rest count).opened = true ∧
      (wrote size rest count).accepted = false := by
    unfold wrote
    split_ifs <;> exact ⟨rfl, rfl, rfl⟩
  refine Invariant.move (e := ⟨s, .advance n count, .silent, { s.put n c (wrote size rest count) with
      journal := writeAt s.journal (size + (recordBytes - rest.length)) (rest.take count) }⟩) h
    (wrote size rest count) ⟨hc, rfl, .inl (by rw [hstage]; rfl), ?_, fun _ => hlock, by simp [hstage],
      fun _ => hnext.2.1⟩ ?_ (fun hacc => by rw [hnext.2.2] at hacc; cases hacc) nofun
    fun m hopens => absurd (hopens.advance hc).2 (by simp [hstage])
  · rw [hwrite, hjournal, ← List.append_assoc]
    exact List.prefix_append _ _
  · have hrest : (done ++ rest.take count) ++ rest.drop count = record crc32 c.digest := by
      rw [List.append_assoc, List.take_append_drop, hrecord]
    have hfresh' : ∀ {s' : Directory}, s'.calls = (s.put n c (wrote size rest count)).calls → Fresh s' c.digest :=
      fun hcalls => fresh_put hc hcalls (fun hacc => by rw [hnext.2.2] at hacc; cases hacc) hfresh
    unfold wrote at hfresh' ⊢
    split_ifs at hfresh' ⊢ with hdone
    · rw [hdone, List.append_nil] at hrest
      exact ⟨old, by rw [hwrite, hrest], hsize ▸ hmod, ho.mono _, hfresh' rfl⟩
    · exact ⟨old, done ++ rest.take count, hwrite, hrest, hsize, hmod, ho.mono _, hfresh' rfl⟩

theorem Invariant.step_force (h : Invariant crc32 past s) (hc : s.calls n = some c) (hstage : c.stage = .written) :
    Invariant crc32 (past ++ [⟨s, .advance n count, .silent, s.put n c (.leaving (some true))⟩])
      (s.put n c (.leaving (some true))) := by
  have hlock : s.fileLock = some n := h.exclusive n c hc (by rw [hstage]; rfl)
  have hwork := h.working n c hc
  simp only [Working, hstage] at hwork
  obtain ⟨old, hjournal, hmod, ⟨e₁, he₁, ho, rfl⟩, hfresh⟩ := hwork
  refine Invariant.move (e := ⟨s, .advance n count, .silent, s.put n c (.leaving (some true))⟩) h
    (.leaving (some true)) ⟨hc, rfl, .inl (by rw [hstage]; rfl), List.prefix_refl _, fun _ => hlock,
      by simp [hstage], fun _ => rfl⟩ trivial (fun _ => .inr ⟨hfresh, ?_⟩) nofun
    fun m hopens => absurd (hopens.advance hc).2 (by simp [hstage])
  exact ⟨e₁, List.mem_append_left _ he₁, _, List.mem_append_right _ (List.mem_singleton_self _), ho,
    ⟨count, c, rfl, hc, hstage⟩, hmod, hjournal, List.prefix_refl _⟩

theorem Invariant.step_advance (h : Invariant crc32 past s) (hc : s.calls n = some c) {ev : Event} {s' : Directory}
    (hrun : advance crc32 n count s c = (ev, s')) : Invariant crc32 (past ++ [⟨s, .advance n count, ev, s'⟩]) s' := by
  have hquiet : c.stage ≠ .locked → ∀ {ev s'} (m : ℕ), ¬Opens ⟨s, .advance n count, ev, s'⟩ m :=
    fun hne _ _ m ho => hne (ho.advance hc).2
  unfold advance at hrun
  cases hstage : c.stage with
  | called =>
    simp only [hstage] at hrun
    split_ifs at hrun with hfree
    · cases hrun
      exact h.pass .inProcess ⟨hc, rfl, .inr ⟨rfl, .inl rfl, nofun⟩, List.prefix_refl _, nofun,
        by simp [hstage], by simp [hstage, Stage.opened]⟩ (fun _ _ _ => trivial) nofun nofun
        fun m ho => absurd ho (hquiet (by simp [hstage]) m)
    · cases hrun
      exact h.stay (hquiet (by simp [hstage]))
  | inProcess =>
    simp only [hstage] at hrun
    cases hlock : s.fileLock with
    | none =>
      simp only [hlock] at hrun
      cases hrun
      exact h.pass .locked ⟨hc, rfl, .inr ⟨rfl, .inr hlock, nofun⟩, List.prefix_refl _, fun _ => rfl,
        by simp [hstage], by simp [hstage, Stage.opened]⟩ (fun _ _ _ => trivial) nofun nofun
        fun m ho => absurd ho (hquiet (by simp [hstage]) m)
    | some m =>
      simp only [hlock] at hrun
      split_ifs at hrun with hsame
      · cases hrun
        exact h.pass (.unlocked none) ⟨hc, rfl, .inr ⟨rfl, .inl rfl, nofun⟩, List.prefix_refl _, nofun,
          by simp [hstage], fun _ => rfl⟩ (fun _ _ _ => trivial) nofun nofun
          fun m ho => absurd ho (hquiet (by simp [hstage]) m)
      · cases hrun
        exact h.stay (hquiet (by simp [hstage]))
  | locked =>
    simp only [hstage] at hrun
    cases hrun
    exact h.step_open hc hstage
  | scanning size index =>
    simp only [hstage] at hrun
    cases hrun
    exact h.step_scan hc hstage
  | appending size rest =>
    simp only [hstage] at hrun
    cases hrun
    exact h.step_write hc hstage
  | written =>
    simp only [hstage] at hrun
    cases hrun
    exact h.step_force hc hstage
  | leaving result =>
    simp only [hstage] at hrun
    cases hrun
    exact h.pass (.unlocked result) ⟨hc, rfl, .inl (by rw [hstage]; rfl), List.prefix_refl _, nofun,
      by simp [hstage], fun _ => rfl⟩ (fun _ _ _ => trivial) (by simp [hstage, Stage.accepted]) nofun
      fun m ho => absurd ho (hquiet (by simp [hstage]) m)
  | unlocked result =>
    simp only [hstage] at hrun
    cases hrun
    refine h.pass (.ended result) ⟨hc, rfl, .inr ⟨rfl, .inl rfl, by simp [hstage, Stage.accepted]⟩,
      List.prefix_refl _, nofun, by simp [hstage], fun _ => rfl⟩ (fun _ _ _ => trivial) (by
      simp [hstage, Stage.accepted]) (fun m d hev => ?_) fun m ho => absurd ho (hquiet (by simp [hstage]) m)
    cases result <;> cases hev
    exact ⟨rfl, rfl, rfl⟩
  | ended result =>
    simp only [hstage] at hrun
    cases hrun
    exact h.stay (hquiet (by simp [hstage]))
  | crashed =>
    simp only [hstage] at hrun
    cases hrun
    exact h.stay (hquiet (by simp [hstage]))

theorem put_self (hc : s.calls n = some c) : s.put n c c.stage = s := by
  unfold Directory.put
  rw [show ({ c with stage := c.stage } : Consume) = c from rfl, ← hc, Function.update_eq_self]

theorem Invariant.step_fail (h : Invariant crc32 past s) (hc : s.calls n = some c) :
    Invariant crc32 (past ++ [⟨s, .fail n, .silent, s.put n c c.stage.failed⟩]) (s.put n c c.stage.failed) := by
  have hopens : ∀ {s' : Directory} (m : ℕ), ¬Opens ⟨s, .fail n, .silent, s'⟩ m := by
    rintro s' m ⟨_, _, ha, -⟩
    cases ha
  have hheld : ∀ stage : Stage, c.stage.holdsLock = true → stage.opened = true → stage.accepted = false →
      (∀ past s n, Working crc32 past s n { c with stage := stage }) → c.stage ≠ .ended (some true) →
      c.stage ≠ .ended none →
      Invariant crc32 (past ++ [⟨s, .fail n, .silent, s.put n c stage⟩]) (s.put n c stage) := by
    intro stage hlock hopened hacc hwork hne hne'
    exact h.pass stage ⟨hc, rfl, .inl hlock, List.prefix_refl _, fun _ => h.exclusive n c hc hlock,
      ⟨hne, fun he => absurd he hne'⟩, fun _ => hopened⟩ hwork (fun ha => by rw [hacc] at ha; cases ha) nofun
      fun m ho => absurd ho (hopens m)
  have hstay : c.stage.failed = c.stage →
      Invariant crc32 (past ++ [⟨s, .fail n, .silent, s.put n c c.stage.failed⟩]) (s.put n c c.stage.failed) := by
    intro hsame
    rw [hsame, put_self hc]
    exact h.stay hopens
  cases hstage : c.stage with
  | called => simpa only [hstage] using hstay (by rw [hstage]; rfl)
  | ended result => simpa only [hstage] using hstay (by rw [hstage]; rfl)
  | crashed => simpa only [hstage] using hstay (by rw [hstage]; rfl)
  | inProcess =>
    exact h.pass (.unlocked none) ⟨hc, rfl, .inr ⟨rfl, .inl rfl, nofun⟩, List.prefix_refl _, nofun,
      by simp [hstage], fun _ => rfl⟩ (fun _ _ _ => trivial) nofun nofun fun m ho => absurd ho (hopens m)
  | unlocked result =>
    exact h.pass (.unlocked none) ⟨hc, rfl, .inr ⟨rfl, .inl rfl, nofun⟩, List.prefix_refl _, nofun,
      by simp [hstage], fun _ => rfl⟩ (fun _ _ _ => trivial) nofun nofun fun m ho => absurd ho (hopens m)
  | _ =>
    exact hheld (.leaving none) (by rw [hstage]; rfl) rfl rfl (fun _ _ _ => trivial) (by simp [hstage])
      (by simp [hstage])

theorem Invariant.step (h : Invariant crc32 past s) {a : Action} {ev : Event} {s' : Directory}
    (hrun : a.run crc32 s = (ev, s')) : Invariant crc32 (past ++ [⟨s, a, ev, s'⟩]) s' := by
  cases a with
  | consume n process digest =>
    have hopens : ∀ {ev s'} (m : ℕ), ¬Opens ⟨s, .consume n process digest, ev, s'⟩ m := by
      rintro ev s' m ⟨_, _, ha, -⟩
      cases ha
    simp only [Action.run] at hrun
    cases hc : s.calls n with
    | some c =>
      simp only [hc] at hrun
      cases hrun
      exact h.stay hopens
    | none =>
      simp only [hc] at hrun
      split_ifs at hrun with hlen
      · cases hrun
        exact Invariant.calm (e := ⟨s, _, _, _⟩) h (start_calms hc (.inl rfl)) nofun hopens
      · cases hrun
        exact Invariant.calm (e := ⟨s, _, _, _⟩) h (start_calms hc (.inr ⟨rfl, not_not.1 hlen⟩)) nofun hopens
  | advance n count =>
    simp only [Action.run] at hrun
    cases hc : s.calls n with
    | none =>
      simp only [hc] at hrun
      cases hrun
      refine h.stay ?_
      rintro m ⟨_, c, ha, hm, -⟩
      cases ha
      rw [hc] at hm
      cases hm
    | some c =>
      simp only [hc] at hrun
      exact h.step_advance hc hrun
  | fail n =>
    simp only [Action.run] at hrun
    cases hc : s.calls n with
    | none =>
      simp only [hc] at hrun
      cases hrun
      refine h.stay ?_
      rintro m ⟨_, _, ha, -⟩
      cases ha
    | some c =>
      simp only [hc] at hrun
      cases hrun
      exact h.step_fail hc
  | crash process =>
    cases hrun
    refine Invariant.calm (e := ⟨s, _, _, _⟩) h (crash_calms process h) nofun ?_
    rintro m ⟨_, _, ha, -⟩
    cases ha

end

theorem Run.invariant {s₀ s : Directory} {steps : List Step} (h : Run crc32 s₀ steps s) : Invariant crc32 steps s := by
  obtain ⟨hnone, htrace⟩ := h
  have hempty : ∀ {n c}, s₀.calls n = some c → False := fun hc => by rw [hnone] at hc; cases hc
  refine htrace.keeps (I := Invariant crc32) ?_ fun past s a r s' hinv _ hrun => hinv.step hrun
  exact ⟨fun _ _ hc => (hempty hc).elim, fun _ _ hc => (hempty hc).elim, fun _ _ hc => (hempty hc).elim,
    fun _ _ hc => (hempty hc).elim, fun _ _ _ _ hc => (hempty hc).elim, nofun, nofun, nofun⟩

end DecentWallet.Kotlin.Replay
