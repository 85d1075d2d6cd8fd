import DecentWallet.Spec.Storage

/-! What `_atomic_write` leaves on the disk for every pattern of failing calls. -/

namespace DecentWallet

open Raised

variable {σ E : Type} {M : Machine σ}

/-! ### What storage calls leave alone -/

/-- At most the file at `path` and the outside state have changed. -/
structure OnlyFile (path : Path) (h h' : Host σ) : Prop where
  sessions : h'.sessions = h.sessions
  nextSession : h'.nextSession = h.nextSession
  signers : h'.signers = h.signers
  log : h'.world.log = h.world.log
  latches : h'.world.latches = h.world.latches
  consumed : h'.world.consumed = h.world.consumed
  fresh : h'.world.fresh = h.world.fresh
  files : ∀ q, q ≠ path → h'.disk.files q = h.disk.files q

instance (path : Path) : Std.Refl (OnlyFile (σ := σ) path) :=
  ⟨fun _ => ⟨rfl, rfl, rfl, rfl, rfl, rfl, rfl, fun _ _ => rfl⟩⟩

instance (path : Path) : IsTrans (Host σ) (OnlyFile path) :=
  ⟨fun _ _ _ h1 h2 => ⟨h2.sessions.trans h1.sessions, h2.nextSession.trans h1.nextSession,
    h2.signers.trans h1.signers, h2.log.trans h1.log, h2.latches.trans h1.latches,
    h2.consumed.trans h1.consumed, h2.fresh.trans h1.fresh,
    fun q hq => (h2.files q hq).trans (h1.files q hq)⟩⟩

open Prog (Keeps)

variable {path : Path}

theorem ask_only {α : Type} (f : σ → α × σ) : Keeps (OnlyFile path) (ask f : Prog (Host σ) E α) :=
  fun _ => ⟨rfl, rfl, rfl, rfl, rfl, rfl, rfl, fun _ _ => rfl⟩

theorem fileAt_only (p : Path) : Keeps (OnlyFile path) (fileAt p : Prog (Host σ) E (Option StoredFile)) :=
  fun _ => ⟨rfl, rfl, rfl, rfl, rfl, rfl, rfl, fun _ _ => rfl⟩

theorem newInode_only : Keeps (OnlyFile path) (newInode : Prog (Host σ) E ℕ) :=
  fun _ => ⟨rfl, rfl, rfl, rfl, rfl, rfl, rfl, fun _ _ => rfl⟩

theorem setFile_only (f : Option StoredFile) :
    Keeps (OnlyFile path) (Prog.modify fun h => h.setFile path f : Prog (Host σ) E Unit) :=
  fun _ => ⟨rfl, rfl, rfl, rfl, rfl, rfl, rfl, fun _ hq => Function.update_of_ne hq _ _⟩

theorem fsCall_only (c : FsCall) : Keeps (OnlyFile path) (fsCall M c) :=
  (ask_only _).bind fun _ => Keeps.reject _ _

theorem readIfPresent_only (p : Path) : Keeps (OnlyFile path) (readIfPresent M p) :=
  (fsCall_only _).bind fun _ => (fileAt_only p).bind fun _ => Keeps.pure _

theorem readBytes_only (p : Path) : Keeps (OnlyFile path) (readBytes M p) := by
  refine (fsCall_only _).bind fun _ => (fileAt_only p).bind fun f => ?_
  cases f with
  | none => exact Keeps.raise _
  | some f => exact Keeps.pure _

theorem lstat_only (p : Path) : Keeps (OnlyFile path) (lstat M p) := by
  refine (fsCall_only _).bind fun _ => (fileAt_only p).bind fun f => ?_
  cases f with
  | none => exact Keeps.raise _
  | some f => exact Keeps.pure _

theorem unlink_only : Keeps (OnlyFile path) (unlink M path) := by
  refine (fsCall_only _).bind fun _ => (fileAt_only path).bind fun f => ?_
  cases f with
  | none => exact Keeps.raise _
  | some f => exact setFile_only none

theorem unlinkStaged_only (inode : ℕ) : Keeps (OnlyFile path) (unlinkStaged M path inode) := by
  refine ((fsCall_only _).attempt).bind fun r => ?_
  rcases r with e | _
  · refine ((fsCall_only _).attempt).bind fun r => ?_
    rcases r with _ | _
    · exact Keeps.raise _
    · refine (fileAt_only path).bind fun f => ?_
      refine Keeps.ite ((setFile_only none).bind fun _ => Keeps.raise _) (Keeps.raise _)
  · exact Keeps.pure _

theorem stageFile_only (data : Bytes) (replace : Bool) : Keeps (OnlyFile path) (stageFile M path data replace) := by
  refine (fsCall_only _).bind fun _ => newInode_only.bind fun inode => ?_
  refine Keeps.ite ((fsCall_only _).bind fun _ => (setFile_only _).bind fun _ => Keeps.pure _) ?_
  exact (fsCall_only _).bind fun _ => (fileAt_only path).bind fun _ => (Keeps.reject _ _).bind fun _ =>
    (setFile_only _).bind fun _ => (unlinkStaged_only inode).bind fun _ => Keeps.pure _

theorem verifyRestored_only (previous : Option Bytes) : Keeps (OnlyFile path) (verifyRestored M path previous) := by
  refine ((readIfPresent_only path).attempt).bind fun r => ?_
  rcases r with _ | current
  · exact Keeps.pure _
  refine Keeps.ite (Keeps.pure _) (((fsCall_only _).attempt).bind fun r => ?_)
  rcases r with _ | _
  · exact Keeps.pure _
  refine ((readIfPresent_only path).attempt).bind fun r => ?_
  rcases r with _ | current
  · exact Keeps.pure _
  · exact Keeps.pure _

theorem undoInstall_only (previous : Option Bytes) : Keeps (OnlyFile path) (undoInstall M path previous) := by
  cases previous with
  | none => exact unlink_only
  | some data => exact (stageFile_only data true).bind fun _ => Keeps.pure _

theorem restore_only (previous : Option Bytes) (installed : ℕ) :
    Keeps (OnlyFile path) (restorePreviousAfterFailedSync M path previous installed) := by
  have hrest : Keeps (OnlyFile path) (if previous.isSome then (pure false : Proc σ Bool)
    else verifyRestored M path previous) := Keeps.ite (Keeps.pure _) (verifyRestored_only previous)
  refine ((lstat_only path).attempt).bind fun r => ?_
  rcases r with (_ | _) | inode
  · exact hrest
  · exact Keeps.pure _
  refine Keeps.ite (Keeps.pure _) (((undoInstall_only previous).attempt).bind fun r => ?_)
  rcases r with (_ | _) | _
  · exact hrest
  · exact verifyRestored_only previous
  · exact verifyRestored_only previous

theorem previousData_only (replace : Bool) : Keeps (OnlyFile path) (previousData M path replace) := by
  refine Keeps.ite ((ask_only _).bind fun r => ?_) (Keeps.pure _)
  cases r with
  | failed => exact Keeps.raise _
  | ignored => exact Keeps.pure _
  | done =>
    refine (fileAt_only path).bind fun f => ?_
    cases f with
    | none => exact Keeps.pure _
    | some f =>
      refine ((readBytes_only path).attempt).bind fun r => ?_
      rcases r with _ | _
      · exact Keeps.raise _
      · exact Keeps.pure _

theorem atomicWrite_only (data : Bytes) (replace : Bool) : Keeps (OnlyFile path) (atomicWrite M path data replace) := by
  refine (previousData_only replace).bind fun previous => ((stageFile_only data replace).attempt).bind fun r => ?_
  rcases r with _ | installed
  · exact Keeps.raise _
  refine ((fsCall_only _).attempt).bind fun r => ?_
  rcases r with _ | _
  · exact (restore_only previous installed).bind fun b => Keeps.ite (Keeps.raise _) (Keeps.raise _)
  · exact Keeps.pure _

/-! ### What is on the disk afterwards -/

/-- The files are as they were. -/
def SameFiles (h h' : Host σ) : Prop := h'.disk.files = h.disk.files

instance : Std.Refl (SameFiles (σ := σ)) := ⟨fun _ => rfl⟩

instance : IsTrans (Host σ) SameFiles := ⟨fun _ _ _ h1 h2 => Eq.trans h2 h1⟩

theorem SameFiles.dataAt {h h' : Host σ} (hf : SameFiles h h') (p : Path) : h'.dataAt p = h.dataAt p := by
  rw [Host.dataAt, Host.dataAt, hf]

theorem fsCall_same (c : FsCall) : Keeps SameFiles (fsCall M c) :=
  Keeps.bind (fun _ => rfl) fun _ => Keeps.reject _ _

theorem fileAt_same (p : Path) : Keeps SameFiles (fileAt p : Prog (Host σ) E (Option StoredFile)) := fun _ => rfl

theorem readIfPresent_same (p : Path) : Keeps SameFiles (readIfPresent M p) :=
  (fsCall_same _).bind fun _ => (fileAt_same p).bind fun _ => Keeps.pure _

theorem lstat_same (p : Path) : Keeps SameFiles (lstat M p) := by
  refine (fsCall_same _).bind fun _ => (fileAt_same p).bind fun f => ?_
  cases f with
  | none => exact Keeps.raise _
  | some f => exact Keeps.pure _

theorem readBytes_same (p : Path) : Keeps SameFiles (readBytes M p) := by
  refine (fsCall_same _).bind fun _ => (fileAt_same p).bind fun f => ?_
  cases f with
  | none => exact Keeps.raise _
  | some f => exact Keeps.pure _

theorem verifyRestored_same (previous : Option Bytes) : Keeps SameFiles (verifyRestored M path previous) := by
  refine ((readIfPresent_same path).attempt).bind fun r => ?_
  rcases r with _ | current
  · exact Keeps.pure _
  refine Keeps.ite (Keeps.pure _) (((fsCall_same _).attempt).bind fun r => ?_)
  rcases r with _ | _
  · exact Keeps.pure _
  refine ((readIfPresent_same path).attempt).bind fun r => ?_
  rcases r with _ | current
  · exact Keeps.pure _
  · exact Keeps.pure _

theorem previousData_same (replace : Bool) : Keeps SameFiles (previousData M path replace) := by
  refine Keeps.ite (Keeps.bind (fun _ => rfl) fun r => ?_) (Keeps.pure _)
  cases r with
  | failed => exact Keeps.raise _
  | ignored => exact Keeps.pure _
  | done =>
    refine (fileAt_same path).bind fun f => ?_
    cases f with
    | none => exact Keeps.pure _
    | some f =>
      refine ((readBytes_same path).attempt).bind fun r => ?_
      rcases r with _ | _
      · exact Keeps.raise _
      · exact Keeps.pure _

variable {h h' : Host σ}

theorem fsCall_run (c : FsCall) (h : Host σ) : fsCall M c h =
    (if (M.fs c h.world.state).1 = .done then .ok () else .error .failed, h.setState (M.fs c h.world.state).2) := by
  by_cases hc : (M.fs c h.world.state).1 = .done <;> simp [fsCall, Prog.bind_run, ask, hc, Prog.reject, reject]

theorem fsCall_error {c : FsCall} {e : OsError} (hr : fsCall M c h = (.error e, h')) :
    (M.fs c h.world.state).1 ≠ .done ∧ h' = h.setState (M.fs c h.world.state).2 := by
  rw [fsCall_run] at hr
  split_ifs at hr with hdone
  · simp at hr
  · exact ⟨hdone, (Prod.mk.inj hr).2.symm⟩

theorem fileAt_ok_iff {p : Path} {f : Option StoredFile} :
    (fileAt p : Prog (Host σ) E _) h = (.ok f, h') ↔ h.disk.files p = f ∧ h = h' := by
  simp [fileAt]

theorem readIfPresent_ok {p : Path} {current : Option Bytes} (hr : readIfPresent M p h = (.ok current, h')) :
    current = h.dataAt p := by
  simp only [readIfPresent, Prog.bind_ok_iff, fileAt_ok_iff, Prog.pure_ok_iff] at hr
  obtain ⟨_, h1, hcall, f, h2, ⟨hf, rfl⟩, hcurrent, -⟩ := hr
  have hsame : SameFiles h h1 := (fsCall_same _).of_run hcall
  rw [← hsame.dataAt, ← hcurrent, ← hf]
  rfl

theorem verifyRestored_true {previous : Option Bytes} (hr : verifyRestored M path previous h = (.ok true, h')) :
    h'.dataAt path = previous := by
  have hsame : SameFiles h h' := (verifyRestored_same previous).of_run hr
  simp only [verifyRestored, Prog.bind_ok_iff, Prog.attempt_ok_iff] at hr
  obtain ⟨r, h1, hread, hrest⟩ := hr
  rcases r with e | current
  · simp at hrest
  · have heq : current = previous := by
      by_contra hne
      simp [hne] at hrest
    rw [hsame.dataAt, ← readIfPresent_ok hread, heq]

theorem stageFile_replace_ok {data : Bytes} {inode : ℕ} (hr : stageFile M path data true h = (.ok inode, h')) :
    h'.disk.files path = some ⟨inode, data⟩ ∧ M.Answers h.world.state [(.stage, true), (.replace, true)] ∧
      h'.world.state = (M.fs .replace (M.fs .stage h.world.state).2).2 := by
  by_cases hstage : (M.fs .stage h.world.state).1 = .done
  · by_cases hreplace : (M.fs .replace (M.fs .stage h.world.state).2).1 = .done
    · simp only [stageFile, Prog.bind_run, fsCall_run, newInode, Host.setState, hstage, hreplace, if_true,
        Prog.modify_run, Prog.pure_run, Prod.mk.injEq, Except.ok.injEq] at hr
      obtain ⟨rfl, rfl⟩ := hr
      simp [Host.setFile, Machine.Answers, hstage, hreplace]
    · simp [stageFile, Prog.bind_run, fsCall_run, newInode, Host.setState, hstage, hreplace] at hr
  · simp [stageFile, Prog.bind_run, fsCall_run, hstage] at hr

theorem stageFile_replace_error {data : Bytes} {e : OsError} (hr : stageFile M path data true h = (.error e, h')) :
    SameFiles h h' := by
  simp only [stageFile, if_true, Prog.bind_error_iff, Prog.modify_run, Prog.pure_error_iff] at hr
  have hinode : ∀ {h1 h2 : Host σ} {n : ℕ}, (newInode : Prog (Host σ) OsError ℕ) h1 = (.ok n, h2) →
    SameFiles h1 h2 := by
    intro h1 h2 n hn
    cases hn
    rfl
  rcases hr with hr | ⟨_, h1, hstage, hr⟩
  · exact (fsCall_same _).of_run hr
  rcases hr with hr | ⟨n, h2, hn, hr⟩
  · cases hr
  rcases hr with hr | ⟨_, h3, -, hr⟩
  · exact IsTrans.trans _ _ _ ((fsCall_same _).of_run hstage)
      (IsTrans.trans _ _ _ (hinode hn) ((fsCall_same _).of_run hr))
  · simp at hr

/-- However it ends, undoing leaves the new content or the previous one. -/
theorem undoInstall_dataAt {previous : Option Bytes} {r : Except OsError Unit}
    (hr : undoInstall M path previous h = (r, h')) : h'.dataAt path = h.dataAt path ∨ h'.dataAt path = previous := by
  cases previous with
  | none =>
    rcases r with e | u
    · refine .inl (SameFiles.dataAt ?_ path)
      simp only [undoInstall, unlink, Prog.bind_error_iff, fileAt_ok_iff] at hr
      rcases hr with hr | ⟨_, h1, hcall, hr⟩
      · exact (fsCall_same _).of_run hr
      rcases hr with hr | ⟨f, h2, ⟨-, rfl⟩, hr⟩
      · cases hr
      cases f with
      | none =>
        obtain ⟨-, rfl⟩ := Prog.raise_error_iff.1 hr
        exact (fsCall_same _).of_run hcall
      | some f => simp at hr
    · refine .inr ?_
      simp only [undoInstall, unlink, Prog.bind_ok_iff, fileAt_ok_iff] at hr
      obtain ⟨_, h1, -, f, h2, ⟨-, rfl⟩, hr⟩ := hr
      cases f with
      | none => simp at hr
      | some f =>
        simp only [Prog.modify_run, Prod.mk.injEq, true_and] at hr
        rw [← hr]
        simp [Host.dataAt, Host.setFile]
  | some data =>
    rcases r with e | u
    · simp only [undoInstall, Prog.bind_error_iff, Prog.pure_error_iff, and_false, exists_false, or_false] at hr
      exact .inl ((stageFile_replace_error hr).dataAt path)
    · simp only [undoInstall, Prog.bind_ok_iff, Prog.pure_ok_iff] at hr
      obtain ⟨inode, h1, hstage, -, rfl⟩ := hr
      exact .inr (by simp [Host.dataAt, (stageFile_replace_ok hstage).1])

theorem verifyRestored_ok (previous : Option Bytes) (h : Host σ) :
    ∃ b h', verifyRestored M path previous h = (.ok b, h') := by
  rcases hr : verifyRestored M path previous h with ⟨e | b, h'⟩
  · exfalso
    simp only [verifyRestored, Prog.bind_error_iff, Prog.attempt_error_iff, false_or] at hr
    obtain ⟨r, h1, -, hr⟩ := hr
    rcases r with _ | current
    · simp at hr
    by_cases hne : current = previous
    · simp only [hne, ne_eq, not_true_eq_false, if_false, Prog.bind_error_iff, Prog.attempt_error_iff, false_or] at hr
      obtain ⟨r, h2, -, hr⟩ := hr
      rcases r with _ | _
      · simp at hr
      simp only [Prog.bind_error_iff, Prog.attempt_error_iff, false_or] at hr
      obtain ⟨r, h3, -, hr⟩ := hr
      rcases r with _ | _ <;> simp at hr
    · simp [hne] at hr
  · exact ⟨b, h', rfl⟩

/-- The restore never raises; it leaves the new content or the previous one, and the previous one where it
reports success. -/
theorem restore_spec (previous : Option Bytes) (installed : ℕ) (h : Host σ) :
    ∃ b h', restorePreviousAfterFailedSync M path previous installed h = (.ok b, h') ∧
      (h'.dataAt path = h.dataAt path ∨ h'.dataAt path = previous) ∧ (b = true → h'.dataAt path = previous) := by
  have hverify : ∀ h1 : Host σ, (h1.dataAt path = h.dataAt path ∨ h1.dataAt path = previous) →
      ∃ b h', verifyRestored M path previous h1 = (.ok b, h') ∧
        (h'.dataAt path = h.dataAt path ∨ h'.dataAt path = previous) ∧ (b = true → h'.dataAt path = previous) := by
    intro h1 h1data
    obtain ⟨b, h', hr⟩ := verifyRestored_ok (M := M) previous h1
    have hsame : SameFiles h1 h' := (verifyRestored_same previous).of_run hr
    refine ⟨b, h', hr, by rwa [hsame.dataAt], fun hb => ?_⟩
    rw [hb] at hr
    exact verifyRestored_true hr
  rcases hstat : lstat M path h with ⟨r, h1⟩
  have hsame : SameFiles h h1 := (lstat_same path).of_run hstat
  unfold restorePreviousAfterFailedSync
  rw [Prog.bind_run_ok (Prog.attempt_ok_iff.2 hstat)]
  rcases r with (_ | _) | inode
  · by_cases hp : previous.isSome
    · simp only [hp, if_true]
      exact ⟨false, h1, rfl, .inl (hsame.dataAt path), by simp⟩
    · simp only [hp]
      exact hverify h1 (.inl (hsame.dataAt path))
  · exact ⟨false, h1, rfl, .inl (hsame.dataAt path), by simp⟩
  · by_cases hi : inode = installed
    · simp only [hi, ne_eq, not_true_eq_false, if_false]
      rcases hundo : undoInstall M path previous h1 with ⟨r, h2⟩
      have hdata : h2.dataAt path = h.dataAt path ∨ h2.dataAt path = previous := by
        rw [← hsame.dataAt path]
        exact undoInstall_dataAt hundo
      rw [Prog.bind_run_ok (Prog.attempt_ok_iff.2 hundo)]
      rcases r with (_ | _) | _
      · by_cases hp : previous.isSome
        · simp only [hp, if_true]
          exact ⟨false, h2, rfl, hdata, by simp⟩
        · simp only [hp]
          exact hverify h2 hdata
      · exact hverify h2 hdata
      · exact hverify h2 hdata
    · simp only [hi, ne_eq, not_false_eq_true, if_true]
      exact ⟨false, h1, rfl, .inl (hsame.dataAt path), by simp⟩

theorem previousData_ok {previous : Option Bytes} (hr : previousData M path true h = (.ok previous, h')) :
    previous = h.dataAt path ∨ (previous = none ∧ (M.fs .exists h.world.state).1 = .ignored ∧
      h' = h.setState (M.fs .exists h.world.state).2) := by
  simp only [previousData, if_true, Prog.bind_ok_iff] at hr
  obtain ⟨r, h1, hask, hr⟩ := hr
  obtain ⟨rfl, rfl⟩ : (M.fs .exists h.world.state).1 = r ∧ h.setState (M.fs .exists h.world.state).2 = h1 := by
    simpa [ask] using hask
  cases hexists : (M.fs .exists h.world.state).1 with
  | failed => simp [hexists] at hr
  | ignored =>
    simp only [hexists, Prog.pure_ok_iff] at hr
    exact .inr ⟨hr.1.symm, rfl, hr.2.symm⟩
  | done =>
    simp only [hexists, Prog.bind_ok_iff, fileAt_ok_iff] at hr
    obtain ⟨f, h2, ⟨hf, rfl⟩, hr⟩ := hr
    have hfile : h.disk.files path = f := hf
    refine .inl ?_
    cases f with
    | none =>
      obtain ⟨rfl, -⟩ := Prog.pure_ok_iff.1 hr
      simp [Host.dataAt, hfile]
    | some f =>
      simp only [Prog.bind_ok_iff, Prog.attempt_ok_iff] at hr
      obtain ⟨r, h3, hread, hr⟩ := hr
      rcases r with _ | data
      · simp at hr
      obtain ⟨rfl, -⟩ := Prog.pure_ok_iff.1 hr
      simp only [readBytes, Prog.bind_ok_iff, fileAt_ok_iff] at hread
      obtain ⟨_, h4, hcall, g, h5, ⟨hg, rfl⟩, hread⟩ := hread
      rw [(fsCall_same _).of_run hcall, hf] at hg
      cases hg
      obtain ⟨rfl, -⟩ := Prog.pure_ok_iff.1 hread
      simp [Host.dataAt, hfile]

theorem previousData_error {e : Raised} (hr : previousData M path true h = (.error e, h')) :
    e = osError ∨ e = storageFailure := by
  simp only [previousData, if_true, Prog.bind_error_iff] at hr
  rcases hr with hr | ⟨r, h1, -, hr⟩
  · cases hr
  cases r with
  | failed => exact .inl (Prog.raise_error_iff.1 hr).1.symm
  | ignored => simp at hr
  | done =>
    simp only [Prog.bind_error_iff] at hr
    rcases hr with hr | ⟨f, h2, -, hr⟩
    · cases hr
    cases f with
    | none => simp at hr
    | some f =>
      simp only [Prog.bind_error_iff, Prog.attempt_error_iff, false_or] at hr
      obtain ⟨r, h3, -, hr⟩ := hr
      rcases r with _ | data
      · exact .inr (Prog.raise_error_iff.1 hr).1.symm
      · simp at hr

/-! ### A file that is taken for missing -/

/-- Nothing is there, and the three calls say so. -/
theorem verifyRestored_none_iff (hfile : h.disk.files path = none) :
    (verifyRestored M path none h).1 = .ok true ↔
      M.Answers h.world.state [(.readBytes, true), (.fsyncDirectory, true), (.readBytes, true)] := by
  by_cases h1 : (M.fs .readBytes h.world.state).1 = .done
  · by_cases h2 : (M.fs .fsyncDirectory (M.fs .readBytes h.world.state).2).1 = .done
    · by_cases h3 : (M.fs .readBytes (M.fs .fsyncDirectory (M.fs .readBytes h.world.state).2).2).1 = .done <;>
        simp [verifyRestored, readIfPresent, fsyncDirectory, Prog.bind_run, fsCall_run, fileAt, Host.setState, hfile,
          Machine.Answers, h1, h2, h3]
    · simp [verifyRestored, readIfPresent, fsyncDirectory, Prog.bind_run, fsCall_run, fileAt, Host.setState, hfile,
        Machine.Answers, h1, h2]
  · simp [verifyRestored, readIfPresent, Prog.bind_run, fsCall_run, Machine.Answers, h1]

/-- Going back to nothing, where our own file is there: it works where it is removed and found missing. -/
theorem restore_none_iff {installed : ℕ} {data : Bytes} (hfile : h.disk.files path = some ⟨installed, data⟩) :
    (restorePreviousAfterFailedSync M path none installed h).1 = .ok true ↔
      M.Answers h.world.state
        [(.lstat, true), (.unlink, true), (.readBytes, true), (.fsyncDirectory, true), (.readBytes, true)] := by
  by_cases h1 : (M.fs .lstat h.world.state).1 = .done
  · by_cases h2 : (M.fs .unlink (M.fs .lstat h.world.state).2).1 = .done
    · set g :=
        ((h.setState (M.fs .lstat h.world.state).2).setState (M.fs .unlink (M.fs .lstat h.world.state).2).2).setFile
        path none with hg
      have hrun : restorePreviousAfterFailedSync M path none installed h = verifyRestored M path none g := by
        simp [restorePreviousAfterFailedSync, lstat, undoInstall, unlink, Prog.bind_run, fsCall_run, fileAt,
          Host.setState, hfile, h1, h2, hg]
      rw [hrun, verifyRestored_none_iff (by simp [hg, Host.setFile])]
      simp [Machine.Answers, h1, h2, hg, Host.setFile, Host.setState]
    · set g := (h.setState (M.fs .lstat h.world.state).2).setState
        (M.fs .unlink (M.fs .lstat h.world.state).2).2 with hg
      have hrun : restorePreviousAfterFailedSync M path none installed h = verifyRestored M path none g := by
        simp [restorePreviousAfterFailedSync, lstat, undoInstall, unlink, Prog.bind_run, fsCall_run, fileAt,
          Host.setState, hfile, h1, h2, hg]
      have hgfile : g.disk.files path = some ⟨installed, data⟩ := hfile
      refine iff_of_false (fun htrue => ?_) (by simp [Machine.Answers, h1, h2])
      rw [hrun] at htrue
      have hrestored := verifyRestored_true (Prog.run_eq htrue)
      rw [SameFiles.dataAt ((verifyRestored_same none).of_run (Prog.run_eq htrue)), Host.dataAt, hgfile] at hrestored
      cases hrestored
  · simp [restorePreviousAfterFailedSync, lstat, Prog.bind_run, fsCall_run, Machine.Answers, h1]

/-- How a replacing write may end, from the state the machine is in, and what it leaves. -/
inductive WriteEnd (M : Machine σ) (s : σ) (before after : Option Bytes) (data : Bytes) :
    Except Raised Unit → Prop where
  | written : after = some data → WriteEnd M s before after data (.ok ())
  | unknown : after = before ∨ after = some data ∨ after = none →
      WriteEnd M s before after data (.error storageOutcomeUnknown)
  | failed {e : Raised} : e = osError ∨ e = storageFailure → after = before → WriteEnd M s before after data (.error e)
  | lost : M.Loses s → after = none → WriteEnd M s before after data (.error storageFailure)

theorem atomicWrite_replace {data : Bytes} {r : Except Raised Unit} (hr : atomicWrite M path data true h = (r, h')) :
    WriteEnd M h.world.state (h.dataAt path) (h'.dataAt path) data r := by
  unfold atomicWrite at hr
  rcases hprev : previousData M path true h with ⟨e | previous, h1⟩
  · rw [Prog.bind_run_error hprev] at hr
    cases hr
    exact .failed (previousData_error hprev) (((previousData_same true).of_run hprev).dataAt path)
  have hsame1 : SameFiles h h1 := (previousData_same true).of_run hprev
  rw [Prog.bind_run_ok hprev] at hr
  rcases hstage : stageFile M path data true h1 with ⟨e | installed, h2⟩
  · rw [Prog.bind_run_ok (Prog.attempt_ok_iff.2 hstage)] at hr
    cases hr
    refine .failed (.inr rfl) ?_
    rw [(stageFile_replace_error hstage).dataAt, hsame1.dataAt]
  obtain ⟨hfile, hanswers, hstate⟩ := stageFile_replace_ok hstage
  have hdata : h2.dataAt path = some data := by simp [Host.dataAt, hfile]
  rw [Prog.bind_run_ok (Prog.attempt_ok_iff.2 hstage)] at hr
  dsimp only at hr
  rcases hsync : fsyncDirectory M h2 with ⟨e | u, h3⟩
  · have hsame3 : SameFiles h2 h3 := (fsCall_same _).of_run hsync
    rw [Prog.bind_run_ok (Prog.attempt_ok_iff.2 hsync)] at hr
    dsimp only at hr
    obtain ⟨b, h4, hrestore, hor, htrue⟩ := restore_spec (M := M) previous installed h3
    rw [Prog.bind_run_ok hrestore] at hr
    rw [hsame3.dataAt, hdata] at hor
    cases b with
    | true =>
      cases hr
      rcases previousData_ok hprev with hprevious | ⟨rfl, hignored, rfl⟩
      · exact .failed (.inr rfl) (by rw [htrue rfl, hprevious])
      · -- the file was taken for missing, so it is missing now
        obtain ⟨hdone, rfl⟩ := fsCall_error hsync
        have hrestored := (restore_none_iff (by rw [hsame3, hfile])).1 (congrArg Prod.fst hrestore)
        refine .lost ⟨hignored, ?_⟩ (htrue rfl)
        rw [hstate] at hdone
        simp only [Host.setState, hstate] at hanswers hrestored hdone
        exact ⟨hanswers.1, hanswers.2.1, by simpa using hdone, hrestored⟩
    | false =>
      cases hr
      rcases previousData_ok hprev with hprevious | ⟨rfl, -, -⟩
      · rw [hprevious] at hor
        exact .unknown (hor.symm.imp_right .inl)
      · exact .unknown (.inr hor)
  · have hsame3 : SameFiles h2 h3 := (fsCall_same _).of_run hsync
    rw [Prog.bind_run_ok (Prog.attempt_ok_iff.2 hsync)] at hr
    cases hr
    exact .written (by rw [hsame3.dataAt, hdata])

/-- From such a state there is no file afterwards. -/
theorem atomicWrite_loses (hM : M.Loses h.world.state) (path : Path) (data : Bytes) :
    ∃ h', atomicWrite M path data true h = (.error storageFailure, h') ∧ h'.dataAt path = none := by
  obtain ⟨hignored, hstage, hreplace, hsync, hrestored⟩ := hM
  simp only [iff_true, Bool.false_eq_true, iff_false] at hstage hreplace hsync
  have hprevious : previousData M path true h = (.ok none, h.setState (M.fs .exists h.world.state).2) := by
    simp [previousData, Prog.bind_run, ask, hignored]
  set g := h.setState (M.fs .exists h.world.state).2 with hg
  rcases hrun : stageFile M path data true g with ⟨e | installed, g'⟩
  · simp [stageFile, Prog.bind_run, fsCall_run, newInode, Host.setState, hstage, hreplace, hg] at hrun
  obtain ⟨hfile, -, hstate⟩ := stageFile_replace_ok hrun
  have hsynced : fsyncDirectory M g' = (.error .failed, g'.setState (M.fs .fsyncDirectory g'.world.state).2) := by
    rw [fsyncDirectory, fsCall_run, if_neg (by rw [hstate]; exact hsync)]
  obtain ⟨b, h', hrestore, -, htrue⟩ : ∃ b h', restorePreviousAfterFailedSync M path none installed
      (g'.setState (M.fs .fsyncDirectory g'.world.state).2) = (.ok b, h') ∧ _ ∧ (b = true → h'.dataAt path = none) :=
    restore_spec none installed
    (g'.setState (M.fs .fsyncDirectory g'.world.state).2)
  have hb : b = true := by
    have hanswers := (restore_none_iff (M := M) (h := g'.setState (M.fs .fsyncDirectory g'.world.state).2) hfile).2
      (by rw [hstate]; exact hrestored)
    rw [hrestore] at hanswers
    exact Except.ok.inj hanswers
  subst hb
  refine ⟨h', ?_, htrue rfl⟩
  rw [atomicWrite, Prog.bind_run_ok hprevious, Prog.bind_run_ok (Prog.attempt_ok_iff.2 hrun)]
  dsimp only
  rw [Prog.bind_run_ok (Prog.attempt_ok_iff.2 hsynced)]
  dsimp only
  rw [Prog.bind_run_ok hrestore]
  rfl

/-! ### Creating a file -/

theorem unlinkStaged_ok {inode : ℕ} {u : Unit} (hr : unlinkStaged M path inode h = (.ok u, h')) : SameFiles h h' := by
  simp only [unlinkStaged, Prog.bind_ok_iff, Prog.attempt_ok_iff] at hr
  obtain ⟨r, h1, hcall, hr⟩ := hr
  rcases r with e | _
  · simp only [Prog.bind_ok_iff, Prog.attempt_ok_iff] at hr
    obtain ⟨r, h2, -, hr⟩ := hr
    rcases r with _ | _
    · simp at hr
    · simp only [Prog.bind_ok_iff, fileAt_ok_iff] at hr
      obtain ⟨f, h3, -, hr⟩ := hr
      split_ifs at hr
      · simp [Prog.bind_ok_iff] at hr
      · simp at hr
  · obtain ⟨-, rfl⟩ := Prog.pure_ok_iff.1 hr
    exact (fsCall_same _).of_run hcall

theorem stageFile_create_ok {data : Bytes} {inode : ℕ} (hr : stageFile M path data false h = (.ok inode, h')) :
    h.dataAt path = none ∧ h'.dataAt path = some data := by
  simp only [stageFile, Bool.false_eq_true, if_false, Prog.bind_ok_iff, Prog.modify_run, Prog.pure_ok_iff,
    Prog.reject_ok_iff, fileAt_ok_iff, Prod.mk.injEq, true_and] at hr
  obtain ⟨_, h1, hstage, n, h2, hinode, _, h3, hlink, f, _, ⟨hf, rfl⟩, _, _, ⟨hnone, rfl⟩, _, h4, hset, _, h5, hunlink,
    -, rfl⟩ := hr
  have h01 : SameFiles h h1 := (fsCall_same _).of_run hstage
  have h12 : SameFiles h1 h2 := by cases hinode; rfl
  have h23 : SameFiles h2 h3 := (fsCall_same _).of_run hlink
  have h03 : SameFiles h h3 := IsTrans.trans _ _ _ h01 (IsTrans.trans _ _ _ h12 h23)
  refine ⟨?_, ?_⟩
  · rw [← h03.dataAt, Host.dataAt, hf]
    simpa using hnone
  · rw [(unlinkStaged_ok hunlink).dataAt, ← hset]
    simp [Host.dataAt, Host.setFile]

/-- A write that creates the file. -/
theorem atomicWrite_create_ok {data : Bytes} {u : Unit} (hr : atomicWrite M path data false h = (.ok u, h')) :
    h.dataAt path = none ∧ h'.dataAt path = some data := by
  simp only [atomicWrite, previousData, Bool.false_eq_true, if_false, Prog.bind_ok_iff, Prog.attempt_ok_iff,
    Prog.pure_ok_iff] at hr
  obtain ⟨previous, _, ⟨-, rfl⟩, r, h1, hstage, hr⟩ := hr
  rcases r with _ | installed
  · simp at hr
  simp only [Prog.bind_ok_iff, Prog.attempt_ok_iff] at hr
  obtain ⟨r, h2, hsync, hr⟩ := hr
  rcases r with _ | _
  · simp only [Prog.bind_ok_iff] at hr
    obtain ⟨b, h3, -, hr⟩ := hr
    split_ifs at hr
    · simp at hr
    · simp at hr
  · obtain ⟨-, rfl⟩ := Prog.pure_ok_iff.1 hr
    have hsame : SameFiles h1 h2 := (fsCall_same _).of_run hsync
    rw [hsame.dataAt]
    exact stageFile_create_ok hstage

/-! ### Reading -/

theorem readContainer_run (path : Path) (h : Host σ) : readContainer M path h =
    (if (M.fs .readBytes h.world.state).1 = .done then
      match h.dataAt path with
      | none => .error storageFailure
      | some data => .ok (data.take (maxContainerBytes + 1))
    else .error storageFailure, h.setState (M.fs .readBytes h.world.state).2) := by
  simp only [readContainer, readBytes, Prog.bind_run, Prog.attempt_run, fsCall_run, fileAt, Host.dataAt]
  have hfiles : (h.setState (M.fs .readBytes h.world.state).2).disk.files path = h.disk.files path := rfl
  split_ifs with hdone
  · cases hf : h.disk.files path with
    | none => simp [hfiles, hf]
    | some f => simp [hfiles, hf]
  · simp

theorem readContainer_ok_iff {raw : Bytes} : readContainer M path h = (.ok raw, h') ↔
    (M.fs .readBytes h.world.state).1 = .done ∧ h' = h.setState (M.fs .readBytes h.world.state).2 ∧
      ∃ data, h.dataAt path = some data ∧ raw = data.take (maxContainerBytes + 1) := by
  rw [readContainer_run, Prod.mk.injEq]
  split_ifs with hdone
  · cases h.dataAt path with
    | none => simp
    | some data => simp [hdone, eq_comm, and_comm]
  · simp [hdone]

/-! ### Without failures -/

theorem fsCall_working (hM : M.Working) (c : FsCall) (h : Host σ) :
    fsCall M c h = (.ok (), h.setState (M.fs c h.world.state).2) := by
  rw [fsCall_run, if_pos (hM c h.world.state)]

theorem Machine.Working.steady (hM : M.Working) : M.Steady := fun s hloses => by
  have hignored := hloses.1
  rw [hM] at hignored
  cases hignored

theorem readContainer_working (hM : M.Working) (path : Path) (h : Host σ) : ∃ s, readContainer M path h =
    (match h.dataAt path with
      | none => .error storageFailure
      | some data => .ok (data.take (maxContainerBytes + 1)), h.setState s) :=
  ⟨_, by rw [readContainer_run, if_pos (hM .readBytes h.world.state)]⟩

/-- A file that can be created is created. -/
theorem atomicWrite_create_working (hM : M.Working) (data : Bytes) (hnone : h.dataAt path = none) :
    ∃ h', atomicWrite M path data false h = (.ok (), h') := by
  have hfile : h.disk.files path = none := by simpa [Host.dataAt] using hnone
  simp [atomicWrite, previousData, stageFile, unlinkStaged, fsyncDirectory, Prog.bind_run, fsCall_working hM, newInode,
    fileAt, Host.setState, hfile, Prog.reject, reject]

/-- A file that is there already is left alone. -/
theorem atomicWrite_create_error_working (hM : M.Working) {data : Bytes} {e : Raised}
    (hr : atomicWrite M path data false h = (.error e, h')) : e = storageFailure ∧ SameFiles h h' := by
  cases hfile : h.disk.files path with
  | none =>
    obtain ⟨h1, hok⟩ := atomicWrite_create_working hM data (by simp [Host.dataAt, hfile] : h.dataAt path = none)
    cases hok.symm.trans hr
  | some f =>
    simp [atomicWrite, previousData, stageFile, Prog.bind_run, fsCall_working hM, newInode, fileAt, Host.setState,
      hfile, Prog.reject, reject] at hr
    exact ⟨hr.1.symm, by rw [← hr.2]; rfl⟩

theorem atomicWrite_replace_working (hM : M.Working) (path : Path) (data : Bytes) (h : Host σ) :
    ∃ h', atomicWrite M path data true h = (.ok (), h') := by
  cases hfile : h.disk.files path with
  | none =>
    simp [atomicWrite, previousData, stageFile, fsyncDirectory, ask, Prog.bind_run, fsCall_working hM, newInode, fileAt,
      Host.setState, hfile, hM .exists]
  | some f =>
    simp [atomicWrite, previousData, readBytes, stageFile, fsyncDirectory, ask, Prog.bind_run, fsCall_working hM,
      newInode, fileAt, Host.setState, hfile, hM .exists]

/-! ### Small machines -/

namespace Sample

/-- Every file-system call works, the clocks stand still, and each new seed is another one. -/
def machine : Machine ℕ where
  tokenBytes n s := (⟨List.replicate n 5, by simp⟩, s)
  generateSeed s := (some ⟨List.replicate 32 (UInt8.ofNat s), by simp [keyLength]⟩, s + 1)
  fs _ s := (.done, s)
  monotonic s := (0, s)
  time s := (0, s)

theorem machine_working : machine.Working := fun _ _ => rfl

/-- `Path.exists` ends as told, and the sync of the directory fails in state `n`. Each sync and each seed counts. -/
def faulty (n : ℕ) (stat : FsEnd) : Machine ℕ :=
  { machine with fs := fun c s =>
      if c = .exists then (stat, s)
      else if c = .fsyncDirectory then (if s = n then .failed else .done, s + 1)
      else (.done, s) }

theorem faulty_steady (n : ℕ) : (faulty n .done).Steady := fun _ h => FsEnd.noConfusion h.1

def host : Host ℕ where
  world := ⟨0, [], [], fun _ _ => none, [], 0⟩
  disk := ⟨fun _ => none, 0⟩
  sessions _ := ⟨[], none, .empty, none, none, none, [], 0, 0⟩
  nextSession := 0
  signers _ := none

/-- The host with one file. -/
def holding (data : Bytes) : Host ℕ := host.setFile (str "w") (some ⟨0, data⟩)

theorem dataAt_holding (data : Bytes) : (holding data).dataAt (str "w") = some data := by
  simp [holding, Host.dataAt, Host.setFile]

end Sample

end DecentWallet
