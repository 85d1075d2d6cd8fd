import DecentWallet.Spec.Container

/-! The wallet file. Every file-system call may fail, and the machine decides which do; a call that
fails has changed nothing. `FileNotFoundError` is raised only where there is no file, or by the `stat` of
`Path.exists`, which takes it and some other errors for an answer. -/

namespace DecentWallet

open Raised

abbrev Path := Str

structure StoredFile where
  inode : ℕ
  data : Bytes
  deriving DecidableEq, Repr

structure Disk where
  files : Path → Option StoredFile
  nextInode : ℕ

/-- The calls that may fail. `stage` stands for everything up to the closed temporary file. -/
inductive FsCall where
  | exists
  | readBytes
  | stage
  | replace
  | link
  | unlinkStaged
  | rollbackLink
  | fsyncDirectory
  | lstat
  | unlink
  deriving DecidableEq, Repr

/-- How a call ends. `Path.exists` answers `False` for an error that it ignores: `ENOENT`, `ENOTDIR`, `EBADF` and
`ELOOP`, and from Python 3.14 on any `OSError`. To every other call it is an error like the rest. -/
inductive FsEnd where
  | done
  | ignored
  | failed
  deriving DecidableEq, Repr

inductive OsError where
  | notFound
  | failed
  deriving DecidableEq, Repr

/-- Everything outside the process that the wallet asks. -/
structure Machine (σ : Type) where
  tokenBytes : (n : ℕ) → σ → { b : Bytes // b.length = n } × σ
  /-- `_generate_seed`; `none` where it raises. -/
  generateSeed : σ → Option { b : Bytes // b.length = keyLength } × σ
  fs : FsCall → σ → FsEnd × σ
  monotonic : σ → ℤ × σ
  time : σ → ℤ × σ

structure Signer where
  seed : Bytes
  publicKey : Bytes
  expiresAt : ℤ
  active : Bool
  wallet : ℕ
  deriving DecidableEq, Repr

/-- A `Wallet` object. `seed` and `pendingSeed` are its entries of `_WALLET_SECRETS` and
`_PENDING_WALLET_SECRETS`. -/
structure Session where
  path : Path
  dek : Option Bytes
  payload : Payload
  seed : Option Bytes
  pendingSeed : Option Bytes
  envelope : Option Container
  capabilities : List ℕ
  inactivitySeconds : ℤ
  lastActivity : ℤ

structure Host (σ : Type) where
  world : World σ
  disk : Disk
  sessions : ℕ → Session
  nextSession : ℕ
  signers : ℕ → Option Signer

abbrev Proc (σ : Type) := Prog (Host σ) Raised

namespace Host

variable {σ : Type}

def setState (h : Host σ) (s : σ) : Host σ := { h with world := { h.world with state := s } }

def setSession (h : Host σ) (i : ℕ) (s : Session) : Host σ := { h with sessions := Function.update h.sessions i s }

def setFile (h : Host σ) (path : Path) (f : Option StoredFile) : Host σ :=
  { h with disk := { h.disk with files := Function.update h.disk.files path f } }

def dataAt (h : Host σ) (path : Path) : Option Bytes := (h.disk.files path).map StoredFile.data

end Host

section

variable {σ E : Type} (M : Machine σ)

def ask {α : Type} (f : σ → α × σ) : Prog (Host σ) E α := fun h =>
  (.ok (f h.world.state).1, h.setState (f h.world.state).2)

def net {α : Type} (x : Net σ α) : Proc σ α := fun h =>
  ((x h.world).1.mapError identity, { h with world := (x h.world).2 })

def fileAt (path : Path) : Prog (Host σ) E (Option StoredFile) := fun h => (.ok (h.disk.files path), h)

def newInode : Prog (Host σ) E ℕ := fun h =>
  (.ok h.disk.nextInode, { h with disk := { h.disk with nextInode := h.disk.nextInode + 1 } })

def fsCall (c : FsCall) : Prog (Host σ) OsError Unit := do
  Prog.reject ((← ask (M.fs c)) ≠ .done) .failed

def fsyncDirectory : Prog (Host σ) OsError Unit := fsCall M .fsyncDirectory

def readBytes (path : Path) : Prog (Host σ) OsError Bytes := do
  fsCall M .readBytes
  match ← fileAt path with
  | none => Prog.raise .notFound
  | some f => return f.data

/-- `path.read_bytes()`, or `None` for a missing file. -/
def readIfPresent (path : Path) : Prog (Host σ) OsError (Option Bytes) := do
  fsCall M .readBytes
  return (← fileAt path).map StoredFile.data

def lstat (path : Path) : Prog (Host σ) OsError ℕ := do
  fsCall M .lstat
  match ← fileAt path with
  | none => Prog.raise .notFound
  | some f => return f.inode

def unlink (path : Path) : Prog (Host σ) OsError Unit := do
  fsCall M .unlink
  match ← fileAt path with
  | none => Prog.raise .notFound
  | some _ => Prog.modify fun h => h.setFile path none

/-- The end of `_stage_file` without replacement: our own link is rolled back where the staged file
cannot be removed. -/
def unlinkStaged (path : Path) (inode : ℕ) : Prog (Host σ) OsError Unit := do
  match ← Prog.attempt (fsCall M .unlinkStaged) with
  | .ok _ => return ()
  | .error e =>
    match ← Prog.attempt (F := OsError) (fsCall M .rollbackLink) with
    | .error _ => Prog.raise e
    | .ok _ =>
      if (← fileAt path).map StoredFile.inode = some inode then Prog.modify fun h => h.setFile path none
      Prog.raise e

def stageFile (path : Path) (data : Bytes) (replace : Bool) : Prog (Host σ) OsError ℕ := do
  fsCall M .stage
  let inode ← newInode
  if replace then
    fsCall M .replace
    Prog.modify fun h => h.setFile path (some ⟨inode, data⟩)
    return inode
  else
    fsCall M .link
    Prog.reject ((← fileAt path).isSome) .failed
    Prog.modify fun h => h.setFile path (some ⟨inode, data⟩)
    unlinkStaged M path inode
    return inode

/-- The second half of `_restore_previous_after_failed_sync`: is the previous content back, durably? -/
def verifyRestored (path : Path) (previous : Option Bytes) : Proc σ Bool := do
  match ← Prog.attempt (readIfPresent M path) with
  | .error _ => return false
  | .ok current =>
    if current ≠ previous then return false
    else
      match ← Prog.attempt (fsyncDirectory M) with
      | .error _ => return false
      | .ok _ =>
        match ← Prog.attempt (readIfPresent M path) with
        | .error _ => return false
        | .ok current => return current = previous

def undoInstall (path : Path) : Option Bytes → Prog (Host σ) OsError Unit
  | none => unlink M path
  | some data => do
    let _ ← stageFile M path data true

def restorePreviousAfterFailedSync (path : Path) (previous : Option Bytes) (installed : ℕ) : Proc σ Bool := do
  match ← Prog.attempt (lstat M path) with
  | .error .notFound => if previous.isSome then return false else verifyRestored M path previous
  | .error .failed => return false
  | .ok inode =>
    if inode ≠ installed then return false
    else
      match ← Prog.attempt (undoInstall M path previous) with
      | .error .notFound => if previous.isSome then return false else verifyRestored M path previous
      | _ => verifyRestored M path previous

/-- The content to go back to: none where `Path.exists` ignored an error, whether there is a file or not. -/
def previousData (path : Path) (replace : Bool) : Proc σ (Option Bytes) := do
  if replace then
    match ← ask (M.fs .exists) with
    | .failed => Prog.raise osError
    | .ignored => return none
    | .done =>
      match ← fileAt path with
      | none => return none
      | some _ =>
        match ← Prog.attempt (readBytes M path) with
        | .error _ => Prog.raise storageFailure
        | .ok data => return some data
  else return none

def atomicWrite (path : Path) (data : Bytes) (replace : Bool) : Proc σ Unit := do
  let previous ← previousData M path replace
  match ← Prog.attempt (stageFile M path data replace) with
  | .error _ => Prog.raise storageFailure
  | .ok installed =>
    match ← Prog.attempt (fsyncDirectory M) with
    | .ok _ => return ()
    | .error _ =>
      if ← restorePreviousAfterFailedSync M path previous installed then Prog.raise storageFailure
      else Prog.raise storageOutcomeUnknown

/-- `_read`. -/
def readContainer (path : Path) : Proc σ Bytes := do
  match ← Prog.attempt (readBytes M path) with
  | .error _ => Prog.raise storageFailure
  | .ok data => return data.take (maxContainerBytes + 1)

/-- Every call succeeds that can. -/
def Machine.Working : Prop := ∀ c s, (M.fs c s).1 = .done

/-- Calls made one after the other, and whether each is done. -/
def Machine.Answers (M : Machine σ) : σ → List (FsCall × Bool) → Prop
  | _, [] => True
  | s, (c, done) :: rest => ((M.fs c s).1 = .done ↔ done = true) ∧ M.Answers (M.fs c s).2 rest

/-- A replacing write that loses the file: `Path.exists` ignores an error, the directory cannot be synced, and the new
file is taken away again as if there had been none before. -/
def Machine.Loses (s : σ) : Prop :=
  (M.fs .exists s).1 = .ignored ∧ M.Answers (M.fs .exists s).2
    [(.stage, true), (.replace, true), (.fsyncDirectory, false), (.lstat, true), (.unlink, true), (.readBytes, true),
      (.fsyncDirectory, true), (.readBytes, true)]

def Machine.Steady : Prop := ∀ s, ¬M.Loses s

end

end DecentWallet
