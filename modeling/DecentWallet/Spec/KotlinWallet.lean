import DecentWallet.Lib.Trace
import DecentWallet.Spec.KotlinIntent
import DecentWallet.Spec.KotlinLogin
import DecentWallet.Spec.Storage

/-! `AndroidWallet.kt`: the `WalletSession` object and its operations. A session is named by its index. The clock, the
random source and the sealing and replacing of the file are an arbitrary oracle, whose state `σ` may change with every
call. Byte arrays are copied and wiped in the source; values need neither. -/

namespace DecentWallet.Kotlin

open WalletError

/-! ### Sessions -/

structure WalletSession where
  path : Path
  rawContainer : Option Bytes
  dataEncryptionKey : Option Bytes
  walletPayload : Option Payload
  activeOwnerKeyRotationPermit : Option OwnerKeyRotationDispatchPermit := none
  activeWalletLoginChallenges : List Str := []

def WalletSession.locked (s : WalletSession) : WalletSession :=
  { s with rawContainer := none, dataEncryptionKey := none, walletPayload := none,
           activeOwnerKeyRotationPermit := none, activeWalletLoginChallenges := [] }

/-- Everything outside the session that it asks. -/
structure Android (σ : Type) where
  /-- `System.currentTimeMillis()`. -/
  currentTimeMillis : σ → ℤ × σ
  /-- `AndroidIdentityCrypto.generateSeed`; `none` where the random source throws. -/
  generateSeed : σ → Option Bytes × σ
  /-- The Ed25519 public key of a seed of 32 bytes. -/
  publicKey : Bytes → Option Bytes
  /-- The Ed25519 signature of a message under a seed of 32 bytes. -/
  sign : Bytes → Bytes → Option Bytes
  /-- `ContainerCrypto.resealPayload` of the container, the key and the candidate. -/
  resealPayload : Bytes → Bytes → Payload → σ → Parse Bytes × σ
  /-- `replaceFile` of the path, the new content and the content expected before. -/
  replaceFile : Path → Bytes → Bytes → σ → Parse Unit × σ

structure Signed where
  session : ℕ
  message : Bytes
  deriving DecidableEq, Repr

structure Phone (σ : Type) where
  state : σ
  sessions : ℕ → WalletSession
  /-- The publications whose `latchClaimed` is set. -/
  latchClaimed : List ℕ
  /-- The permit attached to each publication. -/
  permits : ℕ → Option OwnerKeyRotationDispatchPermit
  /-- The rejections whose `consumed` is set. -/
  resolved : List ℕ
  nextObject : ℕ
  signed : List Signed

abbrev Act (σ α : Type) := Prog (Phone σ) WalletError α

section

variable {σ : Type} (A : Android σ)

def Phone.setSession (p : Phone σ) (i : ℕ) (s : WalletSession) : Phone σ :=
  { p with sessions := Function.update p.sessions i s }

def consult {α : Type} (f : σ → α × σ) : Act σ α := fun p => (.ok (f p.state).1, { p with state := (f p.state).2 })

def nowSeconds : Act σ ℤ := do
  let now ← consult A.currentTimeMillis
  return now.tdiv 1000

variable (i : ℕ)

def session : Act σ WalletSession := fun p => (.ok (p.sessions i), p)

def putSession (s : WalletSession) : Act σ Unit := Prog.modify fun p => p.setSession i s

def lock : Act σ Unit := Prog.modify fun p => p.setSession i (p.sessions i).locked

/-- `ensureUnlocked`, with the three fields that it checks: the container, the key and the payload. -/
def WalletSession.unlocked (s : WalletSession) : Option (Bytes × Bytes × Payload) := do
  let raw ← s.rawContainer
  let dek ← s.dataEncryptionKey
  let payload ← s.walletPayload
  return (raw, dek, payload)

def ensureUnlocked : Act σ Payload := do
  let s ← session i
  let (_, _, payload) ← Prog.lift (orRaise locked s.unlocked)
  return payload

def setPermit (permit : Option OwnerKeyRotationDispatchPermit) : Act σ Unit := Prog.modify fun p =>
  p.setSession i { p.sessions i with activeOwnerKeyRotationPermit := permit }

def replaceFailed : WalletError → Act σ Unit
  | storageOutcomeUnknown => do
    lock i
    Prog.raise storageOutcomeUnknown
  | invalidContainer => do
    lock i
    Prog.raise invalidContainer
  | other => do
    lock i
    Prog.raise storageOutcomeUnknown
  | e => Prog.raise e

def persistPayloadCandidate (candidate : Payload) : Act σ Unit := do
  let s ← session i
  let (raw, dek, _) ← Prog.lift (orRaise locked s.unlocked)
  let replacement ← Prog.lift (← consult (A.resealPayload raw dek candidate))
  match ← consult (A.replaceFile s.path replacement raw) with
  | .error e => replaceFailed i e
  | .ok () => putSession i { s with walletPayload := some candidate, rawContainer := some replacement }

end

/-! ### Key pairs -/

structure KeyPairBytes where
  seed : Bytes
  publicKey : Bytes

section

variable {σ : Type} (A : Android σ)

def publicKeyFromSeed (seed : Bytes) : Parse Bytes := do
  reject (seed.length ≠ keyBytes) invalidContainer
  orRaise invalidContainer (A.publicKey seed)

def requiredKeyPair (payload : Payload) (seedField publicKeyField : String) : Parse KeyPairBytes := do
  let seed ← orRaise invalidContainer (payload.get seedField).asBytes
  let publicKey ← orRaise invalidContainer (payload.get publicKeyField).asBytes
  reject (seed.length ≠ keyBytes ∨ publicKey.length ≠ keyBytes) invalidContainer
  let derived ← publicKeyFromSeed A seed
  reject (derived ≠ publicKey) invalidContainer
  return ⟨seed, publicKey⟩

def requireActiveKeyPair (payload : Payload) : Parse KeyPairBytes :=
  requiredKeyPair A payload "private_seed" "public_key"

def optionalKeyPair (payload : Payload) (seedField publicKeyField : String) : Parse (Option KeyPairBytes) :=
  if payload.has seedField = false ∧ payload.has publicKeyField = false then .ok none
  else do
    reject (payload.has seedField = false ∨ payload.has publicKeyField = false) invalidContainer
    some <$> requiredKeyPair A payload seedField publicKeyField

def pendingKeyPair (payload : Payload) : Parse (Option KeyPairBytes) :=
  optionalKeyPair A payload "pending_private_seed" "pending_public_key"

end

/-! ### Owner-key rotation -/

def dispatchIntentKey : String := "rotation_dispatch_intent"

/-- `walletPayload?.containsKey("rotation_dispatch_intent") == true || activeOwnerKeyRotationPermit != null`. -/
def WalletSession.rotating (s : WalletSession) : Bool :=
  (s.walletPayload.any fun p => p.has dispatchIntentKey) || s.activeOwnerKeyRotationPermit.isSome

section

variable {σ : Type} (A : Android σ) (i : ℕ)

def prepareSigningKeyRotation : Act σ Bytes := do
  let payload ← ensureUnlocked i
  Prog.reject (payload.has dispatchIntentKey = true) rotationInProgress
  let active ← Prog.lift (requireActiveKeyPair A payload)
  match ← Prog.lift (pendingKeyPair A payload) with
  | some pending => do
    Prog.reject (active.publicKey = pending.publicKey) invalidContainer
    return pending.publicKey
  | none => do
    let pendingSeed ← Prog.lift (orRaise keyGeneration (← consult A.generateSeed))
    let pendingPublicKey ← Prog.lift ((publicKeyFromSeed A pendingSeed).mapError fun _ => keyGeneration)
    Prog.reject (active.publicKey = pendingPublicKey) keyGeneration
    persistPayloadCandidate A i ((payload.setBytes "pending_private_seed" pendingSeed).setBytes "pending_public_key"
      pendingPublicKey)
    return pendingPublicKey

def cancelSigningKeyRotation : Act σ Bool := do
  let payload ← ensureUnlocked i
  Prog.reject (payload.has dispatchIntentKey = true) rotationInProgress
  let active ← Prog.lift (requireActiveKeyPair A payload)
  match ← Prog.lift (pendingKeyPair A payload) with
  | none => return false
  | some pending => do
    Prog.reject (active.publicKey = pending.publicKey) invalidContainer
    persistPayloadCandidate A i ((payload.pop "pending_private_seed").pop "pending_public_key")
    return true

def ownerKeyRotationDispatchIntent (payload : Payload) : Parse (Option OwnerKeyRotationDispatchIntent) :=
  if payload.has dispatchIntentKey then
    some <$> OwnerKeyRotationDispatchIntent.fromPayload (payload.get dispatchIntentKey)
  else .ok none

def setIntent (payload : Payload) (intent : OwnerKeyRotationDispatchIntent) : Payload :=
  payload.set dispatchIntentKey intent.toPayload intent.toPayload_ordered

/-- The callback, which runs under the session's lock, answered `approved`; `none` where it threw. -/
def bindLegacyRotationDispatchEnvironment (environment : Str) (approved : Option Bool) :
    Act σ OwnerKeyRotationDispatchIntent := do
  let payload ← ensureUnlocked i
  let intent ← Prog.lift (ownerKeyRotationDispatchIntent payload)
  let intent ← Prog.lift (orRaise invalidIdentityState intent)
  Prog.reject (intent.environment.isSome = true ∨ validRegistryEnvironment environment = false) invalidIdentityState
  Prog.reject (approved ≠ some true) invalidIdentityState
  let bound ←
    Prog.lift (OwnerKeyRotationDispatchIntent.make { intent.toIntentFields with environment := some environment })
  persistPayloadCandidate A i (setIntent payload bound)
  return bound

def claimLatch (publication : OwnerKeyRotationPublication) : Act σ Unit := do
  let p ← Prog.get
  Prog.reject (publication.id ∈ p.latchClaimed) invalidIdentityState
  Prog.modify fun p => { p with latchClaimed := publication.id :: p.latchClaimed }

/-- `OwnerKeyRotationTokenAuthority.permit` and `attachPermit`. -/
def issuePermit (publication : OwnerKeyRotationPublication) : Act σ OwnerKeyRotationDispatchPermit := do
  let p ← Prog.get
  let permit : OwnerKeyRotationDispatchPermit := ⟨p.nextObject, publication.intent, publication⟩
  Prog.modify fun p => { p with nextObject := p.nextObject + 1 }
  Prog.reject ((p.permits publication.id).isSome = true) invalidIdentityState
  Prog.modify fun p => { p with permits := Function.update p.permits publication.id (some permit) }
  return permit

def latchMatches (publication : OwnerKeyRotationPublication) (active pending : KeyPairBytes) (envelopeHash : Bytes) :
    Prop :=
  let intent := publication.intent
  let verified := publication.verifiedCandidateState
  active.publicKey = intent.predecessorOwnerPublicKey ∧ pending.publicKey = intent.successorOwnerPublicKey ∧
    verified.ownerNameBytes = intent.ownerNameBytes ∧ verified.ownerPublicKey = intent.successorOwnerPublicKey ∧
    verified.predecessorOwnerPublicKey = some intent.predecessorOwnerPublicKey ∧
    verified.predecessorStateHash = some intent.predecessorStateHash ∧ (verified.sequence : ℤ) = intent.sequence ∧
    verified.envelopeBytes = publication.envelopeBytes ∧ envelopeHash = intent.envelopeHash ∧
    verified.stateHash.length = keyBytes

instance (publication : OwnerKeyRotationPublication) (active pending : KeyPairBytes) (envelopeHash : Bytes) :
    Decidable (latchMatches publication active pending envelopeHash) := inferInstanceAs (Decidable (_ ∧ _))

def latchOwnerKeyRotationDispatchIntent (C : Primitives) (publication : OwnerKeyRotationPublication) :
    Act σ OwnerKeyRotationDispatchPermit := do
  let payload ← ensureUnlocked i
  Prog.reject ((← session i).rotating = true) rotationInProgress
  Prog.reject (publication.expiresAt ≤ (← nowSeconds A)) rotationConsentExpired
  claimLatch publication
  let active ← Prog.lift (requireActiveKeyPair A payload)
  let pending ← Prog.lift (pendingKeyPair A payload)
  let pending ← Prog.lift (orRaise invalidIdentityState pending)
  Prog.reject (¬latchMatches publication active pending (C.sha256 publication.verifiedCandidateState.envelopeBytes))
    invalidIdentityState
  let permit ← issuePermit publication
  persistPayloadCandidate A i (setIntent payload publication.intent)
  setPermit i (some permit)
  return permit

def resolveOwnerKeyRotationDispatchRejection (rejection : OwnerKeyRotationDispatchRejection) : Act σ Unit := do
  let payload ← ensureUnlocked i
  let intent ← Prog.lift (ownerKeyRotationDispatchIntent payload)
  let intent ← Prog.lift (orRaise invalidIdentityState intent)
  let s ← session i
  let p ← Prog.get
  Prog.reject (intent ≠ rejection.intent ∨ s.activeOwnerKeyRotationPermit.map OwnerKeyRotationDispatchPermit.id ≠
    some rejection.permit.id ∨ rejection.id ∈ p.resolved ∨ rejection.status ≠ .expired) invalidIdentityState
  persistPayloadCandidate A i (payload.pop dispatchIntentKey)
  setPermit i none
  Prog.modify fun p => { p with resolved := rejection.id :: p.resolved }

def promoted (payload : Payload) (pending : KeyPairBytes) : Payload :=
  ((((payload.pop "pending_private_seed").pop "pending_public_key").setBytes "private_seed" pending.seed).setBytes
    "public_key" pending.publicKey).pop dispatchIntentKey

def finalizeSigningKeyRotation (confirmation : OwnerKeyRotationConfirmation) : Act σ Unit := do
  let payload ← ensureUnlocked i
  let intent ← Prog.lift (ownerKeyRotationDispatchIntent payload)
  let intent ← Prog.lift (orRaise invalidIdentityState intent)
  let active ← Prog.lift (requireActiveKeyPair A payload)
  let pending ← Prog.lift (pendingKeyPair A payload)
  let pending ← Prog.lift (orRaise invalidIdentityState pending)
  Prog.reject (intent ≠ confirmation.intent ∨ confirmation.stateHash.length ≠ keyBytes ∨
    active.publicKey ≠ intent.predecessorOwnerPublicKey ∨ pending.publicKey ≠ intent.successorOwnerPublicKey)
    invalidIdentityState
  persistPayloadCandidate A i (promoted payload pending)
  setPermit i none

end

/-- The operations of a session, each under the session's lock from its start to its end. -/
inductive SessionOp where
  | prepare
  | cancel
  | bind (environment : Str) (approved : Option Bool)
  | latch (publication : OwnerKeyRotationPublication)
  | resolve (rejection : OwnerKeyRotationDispatchRejection)
  | finalize (confirmation : OwnerKeyRotationConfirmation)
  | lock

inductive SessionReply where
  | publicKey (key : Bytes)
  | cancelled (removed : Bool)
  | intent (intent : OwnerKeyRotationDispatchIntent)
  | permit (permit : OwnerKeyRotationDispatchPermit)
  | done

def SessionOp.run {σ : Type} (A : Android σ) (C : Primitives) (i : ℕ) : SessionOp → Act σ SessionReply
  | prepare => .publicKey <$> prepareSigningKeyRotation A i
  | cancel => .cancelled <$> cancelSigningKeyRotation A i
  | bind environment approved => .intent <$> bindLegacyRotationDispatchEnvironment A i environment approved
  | latch publication => .permit <$> latchOwnerKeyRotationDispatchIntent A i C publication
  | resolve rejection => (fun _ => .done) <$> resolveOwnerKeyRotationDispatchRejection A i rejection
  | finalize confirmation => (fun _ => .done) <$> finalizeSigningKeyRotation A i confirmation
  | lock => (fun _ => .done) <$> Kotlin.lock i

/-! ### Login proofs -/

section

variable {σ : Type} (A : Android σ) (i : ℕ)

def maxLoginChallengeLifetimeSeconds : ℤ := 300

/-- `reserveLoginProofChallenge` before it takes the session's lock. The source subtracts two `Long`s, so a difference
that overflows is taken modulo `2 ^ 64`. -/
def loginChallengeKey (challenge identityId : Str) (expiresAtEpochSeconds : ℤ) : Act σ Str := do
  let now ← nowSeconds A
  Prog.reject (expiresAtEpochSeconds ≤ now ∨
    maxLoginChallengeLifetimeSeconds < (expiresAtEpochSeconds - now).bmod (2 ^ 64)) loginProofRejected
  let bytes ← Prog.lift (parseBase64Url challenge challengeBytes)
  Prog.reject (utf8 identityId = none) loginProofRejected
  return base64UrlEncode bytes

/-- `reserveLoginProofChallenge` under the lock. -/
def reserveChallengeKey (challengeKey : Str) : Act σ Unit := do
  let _ ← ensureUnlocked i
  let s ← session i
  Prog.reject (s.rotating = true) rotationInProgress
  Prog.reject (challengeKey ∈ s.activeWalletLoginChallenges) loginProofRejected
  putSession i { s with activeWalletLoginChallenges := challengeKey :: s.activeWalletLoginChallenges }

def signMessage (seed message : Bytes) : Act σ Bytes := do
  Prog.reject (seed.length ≠ keyBytes) signing
  Prog.modify fun p => { p with signed := p.signed ++ [⟨i, message⟩] }
  Prog.lift (orRaise signing (A.sign seed message))

def signLoginProof (profile challenge identityId : Str) : Act σ WalletLoginProofRequest := do
  let payload ← ensureUnlocked i
  let active ← Prog.lift (requireActiveKeyPair A payload)
  let message ← Prog.lift (signingBytes profile challenge identityId)
  let signature ← signMessage A i active.seed message
  Prog.reject (signature.length ≠ signatureBytes) signing
  Prog.lift (WalletLoginProofRequest.make profile challenge identityId (base64UrlEncode signature))

def signUnderLock (challenge identityId : Str) (expiresAtEpochSeconds : ℤ) : Act σ WalletLoginProofRequest := do
  let _ ← ensureUnlocked i
  Prog.reject ((← session i).rotating = true) rotationInProgress
  Prog.reject (expiresAtEpochSeconds ≤ (← nowSeconds A)) loginProofRejected
  signLoginProof A i loginProfile challenge identityId

/-- The `catch` block. -/
def releaseChallengeKey (challengeKey : Str) : Act σ Unit := do
  let s ← session i
  putSession i { s with activeWalletLoginChallenges := s.activeWalletLoginChallenges.filter (· ≠ challengeKey) }

/-- A callback that throws has not approved. -/
def isApprovedLoginConsent (consent : Str → Str → Act σ Bool) (profile identityId : Str) : Act σ Bool :=
  Prog.tryCatch (consent profile identityId) fun _ => pure false

/-- The callback runs outside the lock, and so does whatever other threads do meanwhile. -/
def createWalletLoginProofRequest (consent : Str → Str → Act σ Bool) (challenge identityId : Str)
    (expiresAtEpochSeconds : ℤ) : Act σ WalletLoginProofRequest := do
  let challengeKey ← loginChallengeKey A challenge identityId expiresAtEpochSeconds
  reserveChallengeKey i challengeKey
  Prog.tryCatch (do
      let approved ← isApprovedLoginConsent consent loginProfile identityId
      Prog.reject (approved = false) loginProofRejected
      signUnderLock A i challenge identityId expiresAtEpochSeconds)
    fun e => do
      releaseChallengeKey i challengeKey
      Prog.raise e

end

end DecentWallet.Kotlin
