import DecentWallet.Spec.Wallet

/-! `decent_wallet/container.py`: signers, and the signing-key rotation of a wallet from the staged
successor to the promoted key. -/

namespace DecentWallet

open Raised

def invalidRequest : Raised := identity .invalidIdentityRequest

section

variable {σ : Type} (P : Platform) (C : Crypto) (M : Machine σ) (i : ℕ)

/-! ### Public views -/

/-- `Wallet.public_key`. -/
def walletPublicKey : Proc σ Bytes := do
  touch M i
  let s ← session i
  Prog.lift (publicKeyForSecret C s.seed (s.payload.get "public_key"))

def intentOf (payload : Payload) : Except Raised (Option RotationDispatchIntent) :=
  if payload.has intentKey then (RotationDispatchIntent.fromPayload (payload.get intentKey)).map some else .ok none

def signingKeyRotationDispatchIntent : Proc σ (Option RotationDispatchIntent) := do
  touch M i
  Prog.lift (intentOf (← session i).payload)

def pendingKeyOf (s : Session) : Except Raised (Option Bytes) :=
  if s.pendingSeed.isNone then do
    reject ((s.payload.get pendingPublicKeyKey).isNone = false) signerUnavailable
    return none
  else (publicKeyForSecret C s.pendingSeed (s.payload.get pendingPublicKeyKey)).map some

def pendingSigningPublicKey : Proc σ (Option Bytes) := do
  touch M i
  Prog.lift (pendingKeyOf C (← session i))

/-! ### Signers -/

def Host.setSigner (h : Host σ) (id : ℕ) (s : Signer) : Host σ :=
  { h with signers := Function.update h.signers id (some s) }

/-- `create_signer`. A capability whose key is not the stored one is made and invalidated. -/
def createSigner (timeoutSeconds : ℤ) : Proc σ ℕ := do
  touch M i
  ensureRotationDispatchNotLatched i
  let s ← session i
  let seed ← Prog.lift (orRaise signerUnavailable s.seed)
  let stored ← Prog.lift (orRaise signerUnavailable (s.payload.get "public_key").asBytes)
  Prog.reject (seed.length ≠ keyLength ∨ stored.length ≠ keyLength) signerUnavailable
  Prog.reject (¬(0 < timeoutSeconds ∧ timeoutSeconds ≤ 900)) signerUnavailable
  let publicKey ← Prog.lift (orRaise signerUnavailable (C.publicKey seed))
  let now ← ask M.monotonic
  let id ← net newObject
  Prog.modify fun h => h.setSigner id ⟨seed, publicKey, now + timeoutSeconds, publicKey = stored, i⟩
  Prog.reject (publicKey ≠ stored) signerUnavailable
  modifySession i fun s => { s with capabilities := id :: s.capabilities }
  return id

/-! ### Staging a successor -/

/-- The first half of `_prepare_signing_key_rotation`: a new seed and its public key. -/
def stageSuccessor (s : Session) : Proc σ (Bytes × Bytes) := do
  let _ ← Prog.lift (orRaise signerUnavailable s.seed)
  let active ← Prog.lift (orRaise signerUnavailable (s.payload.get "public_key").asBytes)
  let pendingSeed ← generateSeed M
  let pendingPublicKey ← Prog.lift (orRaise keyGeneration (C.publicKey pendingSeed))
  Prog.reject (pendingPublicKey = active) keyGeneration
  return (pendingSeed, pendingPublicKey)

def prepareSigningKeyRotation : Proc σ Bytes := do
  touch M i
  ensureRotationDispatchNotLatched i
  let s ← session i
  if s.pendingSeed.isSome then
    let pending ← pendingSigningPublicKey C M i
    Prog.lift (orRaise signerUnavailable pending)
  else
    let staged ← stageSuccessor C M s
    let updated := s.payload.setBytes pendingPublicKeyKey staged.2
    let envelope ← buildEnvelope C M i updated { pendingSeed := some staged.1 }
    persistEnvelope M i envelope
    modifySession i fun s =>
      { s with pendingSeed := some staged.1, payload := updated, envelope := some envelope }
    invalidateCapabilities i
    return staged.2

def rotationKeys (s : Session) : Except Raised (Bytes × Bytes) := do
  let active ← publicKeyForSecret C s.seed (s.payload.get "public_key")
  let pending ← publicKeyForSecret C s.pendingSeed (s.payload.get pendingPublicKeyKey)
  return (active, pending)

/-- The successor signs the draft; the signature is checked and dropped. -/
def provePossession (s : Session) (pending update : Bytes) : Except Raised Unit := do
  let seed ← orRaise signerUnavailable s.pendingSeed
  let signature ← orRaise signerUnavailable (C.sign seed (P.sha256 update))
  reject (P.verify pending (P.sha256 update) signature = false) signerUnavailable

def provePendingSigningKeyRotation (draft : IdentityDraft P) : Proc σ Unit := do
  touch M i
  ensureRotationDispatchNotLatched i
  let s ← session i
  let keys ← Prog.lift (rotationKeys C s)
  Prog.lift ((draft.validateOwnerKeyRotationBinding keys.1 keys.2).mapError fun _ => invalidRequest)
  Prog.lift (provePossession P C s keys.2 draft.signedUpdateBytes)

def cancelSigningKeyRotation : Proc σ Unit := do
  touch M i
  ensureRotationDispatchNotLatched i
  let s ← session i
  if s.pendingSeed.isNone then
    Prog.reject ((s.payload.get pendingPublicKeyKey).isNone = false) signerUnavailable
  else
    let updated := s.payload.pop pendingPublicKeyKey
    let envelope ← buildEnvelope C M i updated { includePending := false }
    persistEnvelope M i envelope
    modifySession i fun s => { s with pendingSeed := none, payload := updated, envelope := some envelope }
    invalidateCapabilities i

/-! ### The latch -/

def Payload.setIntent (p : Payload) (intent : RotationDispatchIntent) : Payload :=
  p.set intentKey intent.toPayload intent.toPayload_ordered

/-- The bundle as its own transfer form reads it, and the envelope it seals. -/
def revalidateBundle (bundle : IdentityBundle P) : Except Raised (IdentityBundle P × Bytes) :=
  (do
    let validated : IdentityBundle P ← IdentityBundle.fromCbor (← bundle.toCbor)
    return (validated, ← validated.finalize)).mapError fun _ => invalidRequest

/-- The keys of the wallet as `latch` reads them again after the proof of possession. -/
def latchKeys : Proc σ (Bytes × Bytes) := do
  let active ← walletPublicKey C M i
  let pending ← pendingSigningPublicKey C M i
  return (active, ← Prog.lift (orRaise signerUnavailable pending))

def latchIntent (bundle : IdentityBundle P) (publication : RotationPublication P) :
    Proc σ RotationDispatchIntent := do
  let validated ← Prog.lift (revalidateBundle P bundle)
  let now ← ask M.time
  Prog.reject (publication.expiresAt ≤ now ∨ publication.matchesBundle validated.1 = false) invalidRequest
  let draft := validated.1.draft
  let auth ← Prog.lift (orRaise invalidRequest draft.authorization)
  Prog.reject (auth.operation ≠ 5) invalidRequest
  provePendingSigningKeyRotation P C M i draft
  let keys ← latchKeys C M i
  Prog.lift (RotationDispatchIntent.make
    { environment := some publication.environment
      ownerName := draft.ownerName
      predecessorOwnerPublicKey := keys.1
      successorOwnerPublicKey := keys.2
      predecessorStateHash := auth.predecessor
      sequence := draft.sequence
      envelopeHash := P.sha256 validated.2 })

def latchSigningKeyRotationDispatchIntent (bundle : IdentityBundle P) (publication : RotationPublication P) :
    Proc σ RotationDispatchPermit := do
  touch M i
  ensureRotationDispatchNotLatched i
  let intent ← latchIntent P C M i bundle publication
  Prog.reject (publication.matchesIntent intent.toRotationBinding = false) invalidRequest
  Prog.reject ((← net (isOwnerLatched publication.adapter publication.binding.ownerName)) = true) invalidRequest
  invalidateCapabilities i
  let s ← session i
  let updated := s.payload.setIntent intent
  let envelope ← buildEnvelope C M i updated {}
  persistEnvelope M i envelope
  modifySession i fun s => { s with payload := updated, envelope := some envelope }
  Prog.reject ((← net (registerLatch publication.adapter intent.toRotationBinding true)) = false) invalidRequest
  return ⟨intent⟩

/-- `bind_legacy_rotation_dispatch_environment` up to the call of the handler. -/
def bindBegin (environment : Str) : Proc σ RotationDispatchIntent := do
  touch M i
  let intent ← signingKeyRotationDispatchIntent M i
  let intent ← Prog.lift (orRaise invalidRequest intent)
  Prog.reject (intent.environment ≠ none ∨ ¬validRegistryEnvironment environment) invalidRequest
  return intent

/-- `bind_legacy_rotation_dispatch_environment` after it. -/
def bindEnd (intent : RotationDispatchIntent) (environment : Str) (approved : Bool) :
    Proc σ RotationDispatchIntent := do
  touch M i
  Prog.reject (approved = false) invalidRequest
  let current ← signingKeyRotationDispatchIntent M i
  Prog.reject (current ≠ some intent) invalidRequest
  let bound ← Prog.lift (RotationDispatchIntent.make
    { intent.toRotationBinding with environment := some environment })
  let s ← session i
  let updated := s.payload.setIntent bound
  let envelope ← buildEnvelope C M i updated {}
  invalidateCapabilities i
  persistEnvelope M i envelope
  modifySession i fun s => { s with payload := updated, envelope := some envelope }
  return bound

/-- A handler that raises refuses the request. -/
def bindLegacyRotationDispatchEnvironment (environment : Str)
    (consent : RotationDispatchIntent → Str → Proc σ Bool) : Proc σ RotationDispatchIntent := do
  let intent ← bindBegin M i environment
  let approved ← Prog.mapError (fun _ => invalidRequest) (consent intent environment)
  bindEnd C M i intent environment approved

/-! ### Leaving the latch -/

def latchedIntent (s : Session) : Except Raised RotationDispatchIntent := do
  reject ((s.payload.get intentKey).isNone) invalidRequest
  RotationDispatchIntent.fromPayload (s.payload.get intentKey)

def checkLatchedKeys (s : Session) (intent : RotationDispatchIntent) : Except Raised Bytes := do
  reject (s.seed = none ∨ s.pendingSeed = none ∨
    (s.payload.get "public_key").asBytes ≠ some intent.predecessorOwnerPublicKey ∨
    (s.payload.get pendingPublicKeyKey).asBytes ≠ some intent.successorOwnerPublicKey) signerUnavailable
  return (← rotationKeys C s).2

def Session.promoted (s : Session) (payload : Payload) (envelope : Container) : Session :=
  { s with seed := s.pendingSeed, pendingSeed := none, payload := payload, envelope := some envelope }

def finalizeSigningKeyRotation (confirmation : RotationConfirmation) : Proc σ Bytes := do
  touch M i
  let s ← session i
  let intent ← Prog.lift (latchedIntent s)
  Prog.reject (confirmation.matchesIntent intent.toRotationBinding = false) invalidRequest
  let successor ← Prog.lift (checkLatchedKeys C s intent)
  Prog.reject (successor ≠ confirmation.binding.successorOwnerPublicKey) signerUnavailable
  Prog.reject ((← net (isLatched confirmation.adapter intent.toRotationBinding)) = false) invalidRequest
  let updated := ((s.payload.setBytes "public_key" successor).pop pendingPublicKeyKey).pop intentKey
  invalidateCapabilities i
  let envelope ← buildEnvelope C M i updated { activeSeed := s.pendingSeed, includePending := false }
  persistEnvelope M i envelope
  modifySession i fun s => s.promoted updated envelope
  Prog.reject ((← net (clearLatch confirmation.adapter intent.toRotationBinding)) = false) invalidRequest
  return successor

/-- Build and persist; a claimed rejection is given back where that fails. -/
def persistOrRelease (id : ℕ) (updated : Payload) : Proc σ Container :=
  Prog.tryCatch
    (do
      let envelope ← buildEnvelope C M i updated {}
      persistEnvelope M i envelope
      return envelope)
    fun e => do
      net (release id)
      Prog.raise e

def resolveSigningKeyRotationRejection (rejection : RotationDispatchRejection P) : Proc σ Unit := do
  touch M i
  let s ← session i
  let intent ← Prog.lift (latchedIntent s)
  Prog.reject (rejection.matchesIntent intent.toRotationBinding = false) invalidRequest
  let _ ← Prog.lift (checkLatchedKeys C s intent)
  Prog.reject ((← net (isLatched rejection.publication.adapter intent.toRotationBinding)) = false) invalidRequest
  Prog.reject ((← net (consume rejection.id)) = false) invalidRequest
  let updated := s.payload.pop intentKey
  let envelope ← persistOrRelease C M i rejection.id updated
  modifySession i fun s => { s with payload := updated, envelope := some envelope }
  invalidateCapabilities i
  let _ ← net (clearLatch rejection.publication.adapter intent.toRotationBinding)

end

end DecentWallet
