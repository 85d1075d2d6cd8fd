import DecentWallet.Spec.Publish
import DecentWallet.Spec.Signer

/-! `decent_wallet/container.py`: the `Wallet` object and its operations. A wallet is named by the index of
its session; the session is what the object holds in memory. -/

namespace DecentWallet

open Raised

/-! ### Secret material -/

def pendingPrivateSeedKey : String := "pending_private_seed"

def pendingPublicKeyKey : String := "pending_public_key"

def intentKey : String := "rotation_dispatch_intent"

/-- The two secrets and the payload without them. -/
structure SecretMaterial where
  payload : Payload
  seed : Option Bytes
  pendingSeed : Option Bytes

section

variable (C : Crypto)

def validateSeedPublicKeyPair (seed publicKey : PayloadValue) : Except Raised Bytes :=
  orRaise invalidContainer do
    let seed ← seed.asBytes
    let publicKey ← publicKey.asBytes
    if seed.length = keyLength ∧ publicKey.length = keyLength ∧ C.publicKey seed = some publicKey then some seed
    else none

/-- The pending half of `_install_secret_material`. -/
def installPending (publicKey pendingSeed pendingPublicKey : PayloadValue) : Except Raised (Option Bytes) :=
  if pendingSeed.isNone then do
    reject (pendingPublicKey.isNone = false) invalidContainer
    return none
  else do
    let seed ← validateSeedPublicKeyPair C pendingSeed pendingPublicKey
    reject (pendingPublicKey.asBytes = publicKey.asBytes) invalidContainer
    return some seed

def checkInstalledIntent (payload : Payload) : Except Raised Unit :=
  if payload.has intentKey then do
    reject ((payload.get pendingPublicKeyKey).isNone) invalidContainer
    let intent ← RotationDispatchIntent.fromPayload (payload.get intentKey)
    reject ((payload.get "public_key").asBytes ≠ some intent.predecessorOwnerPublicKey ∨
      (payload.get pendingPublicKeyKey).asBytes ≠ some intent.successorOwnerPublicKey) invalidContainer
  else .ok ()

def installSecretMaterial (stored : Payload) : Except Raised SecretMaterial := do
  let payload := (stored.pop "private_seed").pop pendingPrivateSeedKey
  let seed := stored.get "private_seed"
  let pendingSeed := stored.get pendingPrivateSeedKey
  let publicKey := payload.get "public_key"
  let pendingPublicKey := payload.get pendingPublicKeyKey
  if seed.isNone then
    reject (publicKey.isNone = false ∨ pendingSeed.isNone = false ∨ pendingPublicKey.isNone = false ∨
      payload.has intentKey) invalidContainer
    return ⟨payload, none, none⟩
  else
    let active ← validateSeedPublicKeyPair C seed publicKey
    let pending ← installPending C publicKey pendingSeed pendingPublicKey
    checkInstalledIntent payload
    return ⟨payload, some active, pending⟩

def publicKeyForSecret (seed : Option Bytes) (storedPublicKey : PayloadValue) : Except Raised Bytes :=
  orRaise signerUnavailable do
    let seed ← seed
    let publicKey ← storedPublicKey.asBytes
    if seed.length = keyLength ∧ publicKey.length = keyLength ∧ C.publicKey seed = some publicKey then some publicKey
    else none

end

/-! ### Sessions -/

section

variable {σ : Type} (P : Platform) (C : Crypto) (M : Machine σ) (i : ℕ)

def session : Proc σ Session := fun h => (.ok (h.sessions i), h)

def putSession (s : Session) : Proc σ Unit := Prog.modify fun h => h.setSession i s

def invalidateCapabilities : Proc σ Unit := Prog.modify fun h =>
  (h.invalidate (h.sessions i).capabilities).setSession i { h.sessions i with capabilities := [] }

def Session.locked (s : Session) : Session :=
  { s with dek := none, payload := .empty, seed := none, pendingSeed := none, envelope := none, capabilities := [] }

def lock : Proc σ Unit := Prog.modify fun h =>
  (h.invalidate (h.sessions i).capabilities).setSession i (h.sessions i).locked

def requireUnlocked : Proc σ Unit := do
  Prog.reject ((← session i).dek = none) walletLocked

def checkInactivity : Proc σ Bool := do
  let s ← session i
  if s.dek = none then return true
  else
    let current ← ask M.monotonic
    if s.inactivitySeconds ≤ current - s.lastActivity then
      lock i
      return true
    else return false

def touch : Proc σ Unit := do
  requireUnlocked i
  Prog.reject ((← checkInactivity M i) = true) walletLocked
  let now ← ask M.monotonic
  let s ← session i
  putSession i { s with lastActivity := now }

def ensureRotationDispatchNotLatched : Proc σ Unit := do
  Prog.reject ((← session i).payload.has intentKey) rotationInProgress

/-! ### Building and persisting -/

def makePayload (dek : Bytes) (payload : Payload) : Proc σ SealedBox := do
  let encoded ← Prog.lift (encodePayload C payload)
  let nonce ← ask (M.tokenBytes nonceLength)
  Prog.lift (sealPayload C dek encoded nonce)

/-- What `_build_envelope` is asked to store besides the payload. -/
structure Overrides where
  pendingSeed : Option Bytes := none
  activeSeed : Option Bytes := none
  includePending : Bool := true

/-- The active half of `_build_envelope`. -/
def storeActive (s : Session) (o : Overrides) (payload : Payload) : Except Raised Payload :=
  match o.activeSeed with
  | some seed => .ok (payload.setBytes "private_seed" seed)
  | none =>
    match s.seed with
    | none => .ok payload
    | some seed => (payload.setBytes "private_seed" seed).copy s.payload "public_key"

def storePending (s : Session) (o : Overrides) (payload : Payload) : Except Raised Payload :=
  if o.includePending then
    match o.pendingSeed <|> s.pendingSeed with
    | none => .ok payload
    | some seed => do
      let publicKey ← orRaise invalidContainer (payload.get pendingPublicKeyKey).asBytes
      reject (publicKey.length ≠ keyLength) invalidContainer
      return (payload.setBytes pendingPrivateSeedKey seed).setBytes pendingPublicKeyKey publicKey
  else .ok ((payload.pop pendingPrivateSeedKey).pop pendingPublicKeyKey)

def payloadForStorage (s : Session) (o : Overrides) (payload : Payload) : Except Raised Payload := do
  storePending s o (← storeActive s o payload)

def buildEnvelope (payload : Payload) (o : Overrides) : Proc σ Container := do
  let s ← session i
  let dek ← Prog.lift (orRaise walletLocked s.dek)
  let envelope ← Prog.lift (orRaise keyError s.envelope)
  let salt ← Prog.lift (b64Decode envelope.kdf.salt (some saltLength))
  let stored ← Prog.lift (payloadForStorage s o payload)
  let box ← makePayload C M dek stored
  return ⟨currentFormatVersion, kdfHeader salt, envelope.wrap, box⟩

def persistEnvelope (envelope : Container) : Proc σ Unit := do
  let s ← session i
  let data ← Prog.lift (serialize envelope)
  match ← Prog.attempt (atomicWrite M s.path data true) with
  | .ok _ => return ()
  | .error storageOutcomeUnknown =>
    lock i
    Prog.raise storageOutcomeUnknown
  | .error e => Prog.raise e

def modifySession (f : Session → Session) : Proc σ Unit := Prog.modify fun h => h.setSession i (f (h.sessions i))

/-! ### Creating and opening -/

/-- `Wallet.__init__`. -/
def initSession (path : Path) (dek : Bytes) (stored : Payload) (envelope : Container) (inactivityMinutes : ℤ) :
    Proc σ ℕ := do
  let m ← Prog.lift (installSecretMaterial C stored)
  let now ← ask M.monotonic
  fun h => (.ok h.nextSession, { h with
    nextSession := h.nextSession + 1
    sessions := Function.update h.sessions h.nextSession
      { path, dek := some dek, payload := m.payload, seed := m.seed, pendingSeed := m.pendingSeed,
        envelope := some envelope, capabilities := [], inactivitySeconds := inactivityMinutes * 60,
        lastActivity := now } })

def buildV2Envelope (password : Str) (dek : Bytes) (kdf : KdfHeader) (payload : Payload) : Proc σ Container := do
  let salt ← Prog.lift (b64Decode kdf.salt (some saltLength))
  let kek ← Prog.lift (deriveKek C password salt)
  let nonce ← ask (M.tokenBytes nonceLength)
  let wrap ← Prog.lift (wrapDek C kek dek kdf nonce)
  let box ← makePayload C M dek payload
  return ⟨currentFormatVersion, kdf, wrap, box⟩

/-- `except WalletError: raise` and `except Exception: raise StorageFailure()`. -/
def Raised.orStorageFailure (e : Raised) : Raised := if e.isWalletError then e else storageFailure

/-- The session of a file that has just been created; the file is removed where it cannot be made. -/
def initCreated (path : Path) (dek : Bytes) (stored : Payload) (envelope : Container) (inactivityMinutes : ℤ) :
    Proc σ ℕ :=
  Prog.tryCatch (initSession C M path dek stored envelope inactivityMinutes) fun e => do
    let _ ← Prog.attempt (unlink M path)
    Prog.raise e

def createStorage (path : Path) (password confirmation : Str) (payload : Payload) (inactivityMinutes : ℤ) :
    Proc σ ℕ := do
  Prog.lift (validatePassword password (some confirmation))
  Prog.lift (validateInactivity inactivityMinutes)
  Prog.mapError Raised.orStorageFailure do
    let dek ← ask (M.tokenBytes keyLength)
    let salt ← ask (M.tokenBytes saltLength)
    let envelope ← buildV2Envelope C M password dek (kdfHeader salt) payload
    let data ← Prog.lift (serialize envelope)
    atomicWrite M path data false
    initCreated C M path dek payload envelope inactivityMinutes

def hasSigningField (p : Payload) : Bool := signingFields.any p.has

def create (path : Path) (password confirmation : Str) (payload : Payload) (inactivityMinutes : ℤ) : Proc σ ℕ := do
  Prog.reject (hasSigningField payload) invalidContainer
  createStorage C M path password confirmation payload inactivityMinutes

def generateSeed : Proc σ Bytes := do
  match ← ask M.generateSeed with
  | none => Prog.raise keyGeneration
  | some seed => return seed

def createWithGeneratedKey (path : Path) (password confirmation : Str) (inactivityMinutes : ℤ) : Proc σ ℕ := do
  let seed ← generateSeed M
  let publicKey ← Prog.lift (orRaise keyGeneration (C.publicKey seed))
  createStorage C M path password confirmation
    ((Payload.empty.setBytes "private_seed" seed).setBytes "public_key" publicKey) inactivityMinutes

/-- `Wallet.open`. -/
def openWallet (path : Path) (password : Str) (inactivityMinutes : ℤ) : Proc σ ℕ := do
  Prog.lift (validatePassword password none)
  Prog.lift (validateInactivity inactivityMinutes)
  let raw ← readContainer M path
  let envelope ← Prog.lift (parseContainer C raw currentFormatVersion)
  let unlocked ← Prog.lift (unlockEnvelope C envelope password currentFormatVersion)
  initSession C M path unlocked.1 unlocked.2 envelope inactivityMinutes

/-- A session whose container could not be written is locked again. -/
def writeOrLock (path : Path) (data : Bytes) (replace : Bool) (j : ℕ) : Proc σ ℕ := do
  match ← Prog.attempt (atomicWrite M path data replace) with
  | .ok _ => return j
  | .error e =>
    lock j
    Prog.raise e

def importContainer (path : Path) (data : Bytes) (password : Str) (inactivityMinutes : ℤ) : Proc σ ℕ := do
  Prog.lift (validatePassword password none)
  Prog.lift (validateInactivity inactivityMinutes)
  let envelope ← Prog.lift (parseContainer C data currentFormatVersion)
  Prog.mapError Raised.orStorageFailure do
    let unlocked ← Prog.lift (unlockEnvelope C envelope password currentFormatVersion)
    let j ← initSession C M path unlocked.1 unlocked.2 envelope inactivityMinutes
    writeOrLock M path data false j

def migrateContainer (path : Path) (password : Str) (inactivityMinutes : ℤ) : Proc σ ℕ := do
  Prog.lift (validatePassword password none)
  Prog.lift (validateInactivity inactivityMinutes)
  let raw ← readContainer M path
  let envelope ← Prog.lift (parseContainer C raw 1)
  Prog.mapError Raised.orStorageFailure do
    let unlocked ← Prog.lift (unlockEnvelope C envelope password 1)
    let migrated ← buildV2Envelope C M password unlocked.1 envelope.kdf unlocked.2
    let j ← initSession C M path unlocked.1 unlocked.2 migrated inactivityMinutes
    let data ← Prog.lift (serialize migrated)
    writeOrLock M path data true j

/-! ### Content -/

/-- `envelope == self._envelope`; both have passed the parser or were built by the wallet, so the numbers
of their headers are equal. -/
def Container.same (a b : Container) : Bool := a.kdf.salt = b.kdf.salt && a.wrap = b.wrap && a.payload = b.payload

def exportContainer : Proc σ Bytes := do
  touch M i
  let s ← session i
  let raw ← readContainer M s.path
  let envelope ← Prog.lift (parseContainer C raw currentFormatVersion)
  Prog.reject (s.envelope.any envelope.same = false) invalidContainer
  return raw

def Payload.copyIf (payload : Payload) (c : Bool) (source : Payload) (k : String) : Except Raised Payload :=
  if c then payload.copy source k else .ok payload

/-- The payload `_update_payload` stores: the caller's, with the public fields of the rotation kept. -/
def updatedPayload (s : Session) (payload : Payload) : Except Raised Payload := do
  let payload ← payload.copyIf s.seed.isSome s.payload "public_key"
  let payload ← payload.copyIf s.pendingSeed.isSome s.payload pendingPublicKeyKey
  payload.copyIf (s.payload.has intentKey) s.payload intentKey

def updatePayload (payload : Payload) : Proc σ Unit := do
  touch M i
  Prog.reject (hasSigningField payload) invalidContainer
  let s ← session i
  let updated ← Prog.lift (updatedPayload s payload)
  let envelope ← buildEnvelope C M i updated {}
  persistEnvelope M i envelope
  modifySession i fun s => { s with payload := updated, envelope := some envelope }
  invalidateCapabilities i

def changePassword (password confirmation : Str) : Proc σ Unit := do
  touch M i
  Prog.lift (validatePassword password (some confirmation))
  let salt ← ask (M.tokenBytes saltLength)
  let kek ← Prog.lift (deriveKek C password salt)
  let s ← session i
  let dek ← Prog.lift (orRaise walletLocked s.dek)
  let nonce ← ask (M.tokenBytes nonceLength)
  let wrap ← Prog.lift (wrapDek C kek dek (kdfHeader salt) nonce)
  let current ← Prog.lift (orRaise keyError s.envelope)
  let envelope : Container := ⟨currentFormatVersion, kdfHeader salt, wrap, current.payload⟩
  persistEnvelope M i envelope
  modifySession i fun s => { s with envelope := some envelope }

end

end DecentWallet
