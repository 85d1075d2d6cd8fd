import DecentWallet.Sanity.Storage

/-! Creating a file: whole, or not at all, unless the rollback of the new link fails as well. -/

namespace DecentWallet

open Raised

variable {σ : Type} {M : Machine σ} {path : Path} {h h' : Host σ}

/-- How a call that creates a file may end. -/
inductive CreateEnd (before after : Option StoredFile) (data : Bytes) : Except Raised Unit → Prop where
  | created : after.map StoredFile.data = some data → CreateEnd before after data (.ok ())
  | failed : after = before → CreateEnd before after data (.error storageFailure)
  | unknown : CreateEnd before after data (.error storageOutcomeUnknown)

/-- The calls `_stage_file` makes, in order, for a path without a file: the new name is linked, the
staged one cannot be removed, and neither can the link. -/
structure LinkLeft (M : Machine σ) (path : Path) (h : Host σ) : Prop where
  absent : h.disk.files path = none
  stage : (M.fs .stage h.world.state).1 = .done
  link : (M.fs .link (M.fs .stage h.world.state).2).1 = .done
  unlinkStaged : (M.fs .unlinkStaged (M.fs .link (M.fs .stage h.world.state).2).2).1 ≠ .done
  rollbackLink : (M.fs .rollbackLink (M.fs .unlinkStaged (M.fs .link (M.fs .stage h.world.state).2).2).2).1 ≠ .done

theorem fsCall_done {c : FsCall} (hc : (M.fs c h.world.state).1 = .done) :
    fsCall M c h = (.ok (), h.setState (M.fs c h.world.state).2) := by
  rw [fsCall_run, if_pos hc]

theorem fsCall_not_done {c : FsCall} (hc : (M.fs c h.world.state).1 ≠ .done) :
    fsCall M c h = (.error .failed, h.setState (M.fs c h.world.state).2) := by
  rw [fsCall_run, if_neg hc]

/-- The end of staging: the file stays where the staged name is gone or the rollback fails. -/
theorem unlinkStaged_run {inode : ℕ} {data : Bytes} (hfile : h.disk.files path = some ⟨inode, data⟩) :
    (∃ h', unlinkStaged M path inode h = (.ok (), h') ∧ (M.fs .unlinkStaged h.world.state).1 = .done ∧
      h'.disk.files path = some ⟨inode, data⟩) ∨
    ∃ h', unlinkStaged M path inode h = (.error .failed, h') ∧ (M.fs .unlinkStaged h.world.state).1 ≠ .done ∧
      h'.disk.files path = if (M.fs .rollbackLink (M.fs .unlinkStaged h.world.state).2).1 = .done then none
        else some ⟨inode, data⟩ := by
  unfold unlinkStaged
  by_cases hu : (M.fs .unlinkStaged h.world.state).1 = .done
  · refine .inl ⟨h.setState (M.fs .unlinkStaged h.world.state).2, ?_, hu, hfile⟩
    rw [Prog.bind_run_ok (Prog.attempt_ok_iff.2 (fsCall_done hu))]
    rfl
  · refine .inr ?_
    rw [Prog.bind_run_ok (Prog.attempt_ok_iff.2 (fsCall_not_done hu))]
    dsimp only
    set h1 := h.setState (M.fs .unlinkStaged h.world.state).2 with h1_eq
    have hfile1 : h1.disk.files path = some ⟨inode, data⟩ := hfile
    by_cases hr : (M.fs .rollbackLink h1.world.state).1 = .done
    · rw [Prog.bind_run_ok (Prog.attempt_ok_iff.2 (fsCall_done hr))]
      refine ⟨(h1.setState (M.fs .rollbackLink h1.world.state).2).setFile path none, ?_, hu, ?_⟩
      · have hfile2 : (h1.setState (M.fs .rollbackLink h1.world.state).2).disk.files path = some ⟨inode, data⟩ := hfile
        simp [Prog.bind_run, fileAt, hfile2]
      · have hr' : (M.fs .rollbackLink (M.fs .unlinkStaged h.world.state).2).1 = .done := hr
        simp [hr', Host.setFile]
    · rw [Prog.bind_run_ok (Prog.attempt_ok_iff.2 (fsCall_not_done hr))]
      refine ⟨_, rfl, hu, ?_⟩
      have hr' : (M.fs .rollbackLink (M.fs .unlinkStaged h.world.state).2).1 ≠ .done := hr
      rw [if_neg hr']
      exact hfile

/-- Staging without replacement installs the whole file, leaves things as they were, or leaves the link. -/
theorem stageFile_create (path : Path) (data : Bytes) (h : Host σ) :
    (∃ inode h', stageFile M path data false h = (.ok inode, h') ∧ h.disk.files path = none ∧
      h'.dataAt path = some data ∧ ¬LinkLeft M path h) ∨
    ∃ h', stageFile M path data false h = (.error .failed, h') ∧
      (h'.disk.files path = h.disk.files path ↔ ¬LinkLeft M path h) := by
  unfold stageFile
  by_cases hstage : (M.fs .stage h.world.state).1 = .done
  · rw [Prog.bind_run_ok (fsCall_done hstage)]
    set h1 := h.setState (M.fs .stage h.world.state).2 with h1_eq
    simp only [Prog.bind_run, newInode, Bool.false_eq_true, if_false]
    set h2 : Host σ := { h1 with disk := { h1.disk with nextInode := h1.disk.nextInode + 1 } } with h2_eq
    by_cases hlink : (M.fs .link h2.world.state).1 = .done
    · simp only [fsCall_done hlink, fileAt]
      set h3 := h2.setState (M.fs .link h2.world.state).2 with h3_eq
      have hfiles : h3.disk.files path = h.disk.files path := rfl
      rw [hfiles]
      cases hf : h.disk.files path with
      | some f =>
        refine .inr ⟨h3, by simp [Prog.reject, reject], iff_of_true (hfiles.trans hf) fun hl => ?_⟩
        exact absurd hl.absent (by simp [hf])
      | none =>
        simp only [Option.isSome_none, Prog.reject, reject, Bool.false_eq_true, if_false, Prog.lift_run,
          Prog.modify_run]
        set h4 := h3.setFile path (some ⟨h1.disk.nextInode, data⟩) with h4_eq
        have hfile : h4.disk.files path = some ⟨h1.disk.nextInode, data⟩ := by simp [h4_eq, Host.setFile]
        obtain ⟨h5, hrun, hu, hkept⟩ | ⟨h5, hrun, hu, hkept⟩ := unlinkStaged_run (M := M) hfile
        · refine .inl ⟨h1.disk.nextInode, h5, by rw [hrun]; rfl, trivial, by simp [Host.dataAt, hkept], fun hl => ?_⟩
          exact hl.unlinkStaged hu
        · refine .inr ⟨h5, by rw [hrun], ?_⟩
          rw [hkept]
          constructor
          · intro hgone hl
            have hr : (M.fs .rollbackLink (M.fs .unlinkStaged h4.world.state).2).1 ≠ .done := hl.rollbackLink
            simp [hr] at hgone
          · intro hl
            have hr : (M.fs .rollbackLink (M.fs .unlinkStaged h4.world.state).2).1 = .done := by
              by_contra hr
              exact hl ⟨hf, hstage, hlink, hu, hr⟩
            simp [hr]
    · refine .inr
        ⟨h2.setState (M.fs .link h2.world.state).2, by rw [fsCall_not_done hlink], iff_of_true rfl fun hl => ?_⟩
      exact hlink hl.link
  · refine .inr ⟨_, Prog.bind_run_error (fsCall_not_done hstage), iff_of_true rfl fun hl => ?_⟩
    exact hstage hl.stage

/-- For every pattern of failing calls: what was promised, unless our own link is left behind. -/
theorem creation_all_or_nothing_iff (M : Machine σ) (path : Path) (data : Bytes) (h : Host σ) :
    CreateEnd (h.disk.files path) ((atomicWrite M path data false h).2.disk.files path) data
      (atomicWrite M path data false h).1 ↔ ¬LinkLeft M path h := by
  have hprevious : previousData M path false h = (.ok none, h) := rfl
  unfold atomicWrite
  rw [Prog.bind_run_ok hprevious]
  obtain ⟨inode, h1, hstage, hnone, hdata, hl⟩ | ⟨h1, hstage, hl⟩ := stageFile_create (M := M) path data h
  · refine iff_of_true ?_ hl
    rw [Prog.bind_run_ok (Prog.attempt_ok_iff.2 hstage)]
    dsimp only
    rcases hsync : fsyncDirectory M h1 with ⟨e | u, h2⟩
    · have hsame : SameFiles h1 h2 := (fsCall_same _).of_run hsync
      rw [Prog.bind_run_ok (Prog.attempt_ok_iff.2 hsync)]
      dsimp only
      -- the restore goes back to the missing file, or says that it cannot tell
      obtain ⟨b, h3, hrestore, -, htrue⟩ : ∃ b h3, restorePreviousAfterFailedSync M path none inode h2 = (.ok b, h3) ∧
          (h3.dataAt path = h2.dataAt path ∨ h3.dataAt path = none) ∧ (b = true → h3.dataAt path = none) :=
        restore_spec none inode h2
      rw [Prog.bind_run_ok hrestore]
      cases b with
      | true =>
        refine .failed ?_
        rw [hnone]
        simpa [Host.dataAt] using htrue rfl
      | false => exact .unknown
    · have hsame : SameFiles h1 h2 := (fsCall_same _).of_run hsync
      rw [Prog.bind_run_ok (Prog.attempt_ok_iff.2 hsync)]
      exact .created ((hsame.dataAt path).trans hdata)
  · rw [Prog.bind_run_ok (Prog.attempt_ok_iff.2 hstage), ← hl]
    constructor
    · intro hend
      cases hend with
      | failed hsame => exact hsame
    · exact .failed

/-- The sample machine, except that no name can be removed. -/
def Sample.stuck : Machine ℕ :=
  { Sample.machine with fs := fun c s => (if c = .unlinkStaged ∨ c = .rollbackLink then .failed else .done, s) }

/-- `StorageFailure`, and the new file is there. -/
theorem creation_leaves_link :
    (atomicWrite Sample.stuck (str "w") [1] false Sample.host).1 = .error storageFailure ∧
      Sample.host.dataAt (str "w") = none ∧
      (atomicWrite Sample.stuck (str "w") [1] false Sample.host).2.dataAt (str "w") = some [1] :=
  ⟨by decide +kernel, rfl, by decide +kernel⟩

end DecentWallet
