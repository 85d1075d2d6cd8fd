import DecentWallet.Spec.Rotation

/-! The operations of a `Wallet` object as one type, for runs of any length. -/

namespace DecentWallet

variable {σ : Type}

/-- The handler of `bind_legacy_rotation_dispatch_environment` runs between its two halves. -/
inductive WalletOp (P : Platform) where
  | updatePayload (payload : Payload)
  | changePassword (password confirmation : Str)
  | createSigner (timeoutSeconds : ℤ)
  | prepare
  | provePending (draft : IdentityDraft P)
  | cancel
  | latch (bundle : IdentityBundle P) (publication : RotationPublication P)
  | bindBegin (environment : Str)
  | bindEnd (intent : RotationDispatchIntent) (environment : Str) (approved : Bool)
  | finalize (confirmation : RotationConfirmation)
  | resolve (rejection : RotationDispatchRejection P)
  | exportContainer
  | lock

inductive WalletResult where
  | nothing
  | key (publicKey : Bytes)
  | signer (id : ℕ)
  | permit (permit : RotationDispatchPermit)
  | intent (intent : RotationDispatchIntent)
  | data (raw : Bytes)
  deriving DecidableEq

def WalletOp.run {P : Platform} (C : Crypto) (M : Machine σ) (i : ℕ) : WalletOp P → Proc σ WalletResult
  | updatePayload payload => (fun _ => .nothing) <$> DecentWallet.updatePayload C M i payload
  | changePassword password confirmation =>
      (fun _ => .nothing) <$> DecentWallet.changePassword C M i password confirmation
  | createSigner timeoutSeconds => .signer <$> DecentWallet.createSigner C M i timeoutSeconds
  | prepare => .key <$> prepareSigningKeyRotation C M i
  | provePending draft => (fun _ => .nothing) <$> provePendingSigningKeyRotation P C M i draft
  | cancel => (fun _ => .nothing) <$> cancelSigningKeyRotation C M i
  | latch bundle publication => .permit <$> latchSigningKeyRotationDispatchIntent P C M i bundle publication
  | bindBegin environment => .intent <$> DecentWallet.bindBegin M i environment
  | bindEnd intent environment approved => .intent <$> DecentWallet.bindEnd C M i intent environment approved
  | finalize confirmation => .key <$> finalizeSigningKeyRotation C M i confirmation
  | resolve rejection => (fun _ => .nothing) <$> resolveSigningKeyRotationRejection P C M i rejection
  | exportContainer => .data <$> DecentWallet.exportContainer C M i
  | lock => (fun _ => .nothing) <$> DecentWallet.lock i

/-- Whether the operation writes the file, where it returns: a successor is staged once, and removed where there is
one. -/
def WalletOp.rewrites {P : Platform} (op : WalletOp P) (s : Session) : Bool :=
  match op with
  | .updatePayload _ => true
  | .changePassword _ _ => true
  | .prepare => s.pendingSeed.isNone
  | .cancel => s.pendingSeed.isSome
  | .latch _ _ => true
  | .bindEnd _ _ _ => true
  | .finalize _ => true
  | .resolve _ => true
  | _ => false

/-! ### Runs of one session -/

/-- The `kdf` object is the one the wallet itself writes. -/
def Container.OwnHeader (c : Container) : Prop := ∃ salt, salt.length = saltLength ∧ c.kdf = kdfHeader salt

/-- The header prints as the one the wallet writes for its salt. -/
def Container.HeaderKept (c : Container) : Prop := ∀ salt, b64Decode c.kdf.salt (some saltLength) = .ok salt →
  wrapAad (kdfHeader salt) currentFormatVersion = wrapAad c.kdf currentFormatVersion

def WalletOp.passwordAfter {P : Platform} (op : WalletOp P) (password : Str) : Str :=
  match op with
  | .changePassword new _ => new
  | _ => password

/-- The ways a session begins, with the password it begins with. A container that is read meets `H`. -/
inductive Started (C : Crypto) (M : Machine σ) (H : Container → Prop) (i : ℕ) (password : Str) (h' : Host σ) :
    Prop where
  | create {path : Path} {confirmation : Str} {payload : Payload} {minutes : ℤ} {h : Host σ} :
      create C M path password confirmation payload minutes h = (.ok i, h') → Started C M H i password h'
  | generated {path : Path} {confirmation : Str} {minutes : ℤ} {h : Host σ} :
      createWithGeneratedKey C M path password confirmation minutes h = (.ok i, h') → Started C M H i password h'
  | opened {path : Path} {minutes : ℤ} {h : Host σ} : openWallet C M path password minutes h = (.ok i, h') →
      (∀ c ∈ (h'.sessions i).envelope, H c) → Started C M H i password h'
  | imported {path : Path} {data : Bytes} {minutes : ℤ} {h : Host σ} :
      importContainer C M path data password minutes h = (.ok i, h') →
      (∀ c ∈ (h'.sessions i).envelope, H c) → Started C M H i password h'
  | migrated {path : Path} {minutes : ℤ} {h : Host σ} : migrateContainer C M path password minutes h = (.ok i, h') →
      (∀ c ∈ (h'.sessions i).envelope, H c) → Started C M H i password h'

/-- `open` or `import_container` accepts `data` with the password and makes session `i`. -/
inductive Accepts (C : Crypto) (M : Machine σ) (data : Bytes) (password : Str) (i : ℕ) (h' : Host σ) : Prop where
  | opened {path : Path} {minutes : ℤ} {h : Host σ} : h.dataAt path = some data →
      openWallet C M path password minutes h = (.ok i, h') → Accepts C M data password i h'
  | imported {path : Path} {minutes : ℤ} {h : Host σ} :
      importContainer C M path data password minutes h = (.ok i, h') → Accepts C M data password i h'

def WalletOp.Rekeys {P : Platform} (op : WalletOp P) (r : Except Raised WalletResult) : Prop :=
  (∃ password confirmation, op = .changePassword password confirmation) ∧ r.isOk = true

def passwordThen {P : Platform} (op : WalletOp P) (r : Except Raised WalletResult) (password : Str) : Str :=
  match r with
  | .ok _ => op.passwordAfter password
  | .error _ => password

/-- A run of session `i`: operations that are allowed by the session they start from and the way they end, and
between them anything that touches neither the session nor its file. -/
inductive SessionRun {P : Platform} (C : Crypto) (M : Machine σ)
    (A : Session → WalletOp P → Except Raised WalletResult → Prop) (i : ℕ) (h0 : Host σ) (password0 : Str) :
    Host σ → Str → Prop where
  | start : SessionRun C M A i h0 password0 h0 password0
  | operation {h h' : Host σ} {password : Str} {r : Except Raised WalletResult} (op : WalletOp P) :
      SessionRun C M A i h0 password0 h password → A (h.sessions i) op r → op.run C M i h = (r, h') →
      SessionRun C M A i h0 password0 h' (passwordThen op r password)
  | elsewhere {h h' : Host σ} {password : Str} : SessionRun C M A i h0 password0 h password →
      h'.sessions i = h.sessions i → h'.dataAt (h.sessions i).path = h.dataAt (h.sessions i).path →
      SessionRun C M A i h0 password0 h' password

end DecentWallet
