import DecentWallet.Spec.KotlinHistory

/-! `IdentityRotation.kt`: owner-key rotations on a verified version-1 state, which wait for the proofs of its
signers, and on a legacy state, which the wallet proves at once. -/

namespace DecentWallet.Kotlin

open Cbor WalletError

/-! ### Signatures -/

/-- `AndroidIdentityCrypto.sign`, where `sign` is the Ed25519 signature under a seed of 32 bytes. -/
def signDigest (sign : Bytes → Bytes → Option Bytes) (seed message : Bytes) : Parse Bytes := do
  reject (seed.length ≠ keyBytes) signing
  orRaise signing (sign seed message)

def verifySignature (C : Primitives) (publicKey message signature : Bytes) : Bool :=
  publicKey.length == keyBytes && signature.length == signatureBytes && C.verify publicKey message signature

/-! ### Drafts and proofs -/

structure OwnerKeyRotationDraft where
  ownerNameBytes : Bytes
  predecessorOwnerPublicKey : Bytes
  successorOwnerPublicKey : Bytes
  predecessorStateHash : Bytes
  sequence : ℕ
  signedUpdateBytes : Bytes
  envelopeBytes : Bytes
  deriving DecidableEq, Repr

structure OwnerKeyRotationProof where
  signerId : Str
  signature : Bytes
  idOk : ∃ b ∈ utf8 signerId, b ≠ [] ∧ b.length ≤ maxSignerIdBytes
  signatureOk : signature.length = signatureBytes

def OwnerKeyRotationProof.entry (p : OwnerKeyRotationProof) : ProofEntry := (some p.signerId, p.signature)

structure VersionedOwnerKeyRotationDraft where
  ownerNameBytes : Bytes
  predecessorOwnerPublicKey : Bytes
  successorOwnerPublicKey : Bytes
  predecessorStateHash : Bytes
  sequence : ℕ
  signedUpdateBytes : Bytes
  authorizedSigners : SignerSet
  threshold : ℕ
  deriving DecidableEq, Repr

def rotationItem (ownerName publicKey : Bytes) (sequence generation threshold : ℕ) (signers : SignerSet)
    (predecessorHash : Bytes) : Value :=
  dict [dict [.bytes ownerName, .bytes publicKey], dict [], .int sequence,
    dict [.int 1, .int 1, .int 5, .int generation, .int threshold,
      .array (signers.map fun s => dict [.text s.1, .bytes s.2]), .bytes predecessorHash]]

section

variable (C : Primitives)

namespace VersionedOwnerKeyRotationDraft

/-- `proofs.sortedWith { .. compareUnsigned(..) }`. -/
def sortProofs (proofs : List OwnerKeyRotationProof) : List OwnerKeyRotationProof :=
  proofs.insertionSort fun a b => bytesLe (utf8Raw a.signerId) (utf8Raw b.signerId) = true

/-- `signers.associateBy(..)[signerId]`: of two signers with one id, the later counts. -/
def signerKey (signers : SignerSet) (signerId : Str) : Option Bytes :=
  (signers.reverse.find? fun s => s.1 == signerId).map Prod.snd

def checkProofs (signers : SignerSet) (update : Bytes) : List OwnerKeyRotationProof → List Str → Parse (List Str)
  | [], seen => return seen
  | proof :: proofs, seen => do
    reject (proof.signerId ∈ seen) invalidIdentityState
    let publicKey ← orRaise invalidIdentityState (signerKey signers proof.signerId)
    reject (verifySignature C publicKey (C.sha256 update) proof.signature = false) invalidIdentityState
    checkProofs signers update proofs (seen ++ [proof.signerId])

def envelopeItem (d : VersionedOwnerKeyRotationDraft) (proofs : List OwnerKeyRotationProof) : Value :=
  dict [.int 1, .bytes d.signedUpdateBytes,
    .array ((sortProofs proofs).map fun p => dict [.text p.signerId, .bytes p.signature])]

def finalizeWithProofs (d : VersionedOwnerKeyRotationDraft) (proofs : List OwnerKeyRotationProof) :
    Parse OwnerKeyRotationDraft := do
  reject (proofs = [] ∨ d.authorizedSigners.length < proofs.length ∨
    ¬(1 ≤ d.threshold ∧ d.threshold ≤ d.authorizedSigners.length)) invalidIdentityState
  let seen ← checkProofs C d.authorizedSigners d.signedUpdateBytes (sortProofs proofs) []
  reject (seen.length < d.threshold) invalidIdentityState
  let envelope ← encodeCanonical (d.envelopeItem proofs)
  return { ownerNameBytes := d.ownerNameBytes, predecessorOwnerPublicKey := d.predecessorOwnerPublicKey,
           successorOwnerPublicKey := d.successorOwnerPublicKey, predecessorStateHash := d.predecessorStateHash,
           sequence := d.sequence, signedUpdateBytes := d.signedUpdateBytes, envelopeBytes := envelope }

end VersionedOwnerKeyRotationDraft

/-! ### A version-1 predecessor -/

variable (sign : Bytes → Bytes → Option Bytes)

def provePossession (pendingSeed pendingPublicKey update : Bytes) : Parse Unit := do
  let proofOfPossession ← signDigest sign pendingSeed (C.sha256 update)
  reject (verifySignature C pendingPublicKey (C.sha256 update) proofOfPossession = false) invalidIdentityState

def VersionedOwnerKeyRotation.createDraft (ownerName : Bytes) (predecessorState : VerifiedIdentityState)
    (activeOwnerPublicKey pendingSeed pendingPublicKey : Bytes) : Parse VersionedOwnerKeyRotationDraft := do
  reject (predecessorState.signerSet = []) invalidIdentityState
  let generation ← orRaise invalidIdentityState predecessorState.generation
  let threshold ← orRaise invalidIdentityState predecessorState.threshold
  reject (threshold = 0 ∨ predecessorState.signerSet.length < threshold ∨ ownerName ≠ predecessorState.ownerNameBytes ∨
    activeOwnerPublicKey ≠ predecessorState.ownerPublicKey ∨ activeOwnerPublicKey = pendingPublicKey)
    invalidIdentityState
  let sequence := predecessorState.sequence + 1
  let update ← encodeCanonical (rotationItem ownerName pendingPublicKey sequence generation threshold
    predecessorState.signerSet predecessorState.stateHash)
  provePossession C sign pendingSeed pendingPublicKey update
  return { ownerNameBytes := ownerName, predecessorOwnerPublicKey := predecessorState.ownerPublicKey,
           successorOwnerPublicKey := pendingPublicKey, predecessorStateHash := predecessorState.stateHash, sequence,
           signedUpdateBytes := update, authorizedSigners := predecessorState.signerSet, threshold }

/-! ### A legacy predecessor -/

structure LegacyPredecessor where
  ownerName : Bytes
  ownerPublicKey : Bytes
  sequence : ℕ
  stateHash : Bytes
  deriving DecidableEq, Repr

namespace LegacyOwnerKeyRotation

/-- `exactMap` of this object, which compares the keys alone. -/
def exactMap (expectedKeys : List ℤ) (value : Value) : Parse Dict := do
  let m ← map value
  reject (¬keySet m expectedKeys) invalidIdentityState
  return m

/-- A version-1 envelope is told apart from an invalid one. -/
def rejectVersionOne (outer : Dict) : Parse Unit :=
  if keySet outer [1, 2, 3] then
    match get outer 1 with
    | .int n => if 0 ≤ n then .error unsupportedIdentityState else .error invalidIdentityState
    | _ => .error invalidIdentityState
  else return ()

def parseLegacyPredecessor (envelopeBytes : Bytes) : Parse LegacyPredecessor := do
  let value ← decodeCanonical envelopeBytes
  let outer ← map value
  rejectVersionOne outer
  let envelope ← exactMap [1, 2] value
  let updateBytes ← bytes none (get envelope 1)
  let signature ← bytes (some signatureBytes) (get envelope 2)
  let update ← decodeCanonical updateBytes
  let decodedUpdate ← exactMap [1, 2, 3] update
  let record ← exactMap [1, 2] (get decodedUpdate 1)
  let ownerName ← bytes none (get record 1)
  let ownerPublicKey ← bytes (some keyBytes) (get record 2)
  requireValidUtf8 ownerName
  let payload ← anyMap (get decodedUpdate 2)
  reject (payload ≠ []) invalidIdentityState
  let sequence ← uint (get decodedUpdate 3)
  reject (verifySignature C ownerPublicKey (C.sha256 updateBytes) signature = false) invalidIdentityState
  return { ownerName, ownerPublicKey, sequence, stateHash := C.sha256 updateBytes }
where
  anyMap : Value → Parse Dict
    | .map m => .ok m
    | _ => .error invalidIdentityState

def checkSigner (s : Str × Bytes) : Parse Unit := do
  let idBytes ← orRaise invalidIdentityState (utf8 s.1)
  reject (idBytes = [] ∨ maxSignerIdBytes < idBytes.length) invalidIdentityState
  reject (s.2.length ≠ keyBytes) invalidIdentityState

def validateSuccessorSigners (signers : SignerSet) (successorOwnerPublicKey : Bytes) : Parse SignerSet := do
  reject (signers.length ≠ 3) invalidIdentityState
  signers.forM checkSigner
  reject (¬signers.Pairwise fun a b => a.1 ≠ b.1 ∧ a.2 ≠ b.2) invalidIdentityState
  reject (successorOwnerPublicKey ∉ signers.map Prod.snd) invalidIdentityState
  return sortSigners signers

def createDraft (ownerName predecessorEnvelope activeSeed activePublicKey pendingSeed pendingPublicKey : Bytes)
    (successorSigners : SignerSet) : Parse OwnerKeyRotationDraft := do
  reject (ownerName = []) invalidIdentityState
  requireValidUtf8 ownerName
  let predecessor ← parseLegacyPredecessor C predecessorEnvelope
  reject (predecessor.ownerName ≠ ownerName) invalidIdentityState
  reject (predecessor.ownerPublicKey ≠ activePublicKey) invalidIdentityState
  reject (activePublicKey = pendingPublicKey) invalidIdentityState
  let signers ← validateSuccessorSigners successorSigners pendingPublicKey
  let sequence := predecessor.sequence + 1
  let update ← encodeCanonical (rotationItem ownerName pendingPublicKey sequence 1 2 signers predecessor.stateHash)
  provePossession C sign pendingSeed pendingPublicKey update
  let predecessorProof ← signDigest sign activeSeed (C.sha256 update)
  let envelope ← encodeCanonical (dict [.int 1, .bytes update, .array [dict [.null, .bytes predecessorProof]]])
  return { ownerNameBytes := ownerName, predecessorOwnerPublicKey := predecessor.ownerPublicKey,
           successorOwnerPublicKey := pendingPublicKey, predecessorStateHash := predecessor.stateHash, sequence,
           signedUpdateBytes := update, envelopeBytes := envelope }

end LegacyOwnerKeyRotation

end

end DecentWallet.Kotlin
