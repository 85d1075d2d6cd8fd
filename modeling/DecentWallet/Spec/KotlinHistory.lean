import DecentWallet.Spec.History
import DecentWallet.Spec.KotlinCbor

/-! `IdentityStateHistory.kt`: the Android client's verifier of an Identity envelope and its
hash-addressed history. Byte arrays are copied and wiped in the source; values need neither. -/

namespace DecentWallet.Kotlin

open Cbor

open WalletError

def keyBytes : ℕ := 32

def signatureBytes : ℕ := 64

def maxSignerIdBytes : ℕ := 256

def maxProofs : ℕ := 3

def maxHistoryTotalBytes : ℕ := 4 * 1024 * 1024

def maxPredecessorDepth : ℕ := 1024

/-! ### Fields -/

/-- `m[n]`, null where there is no entry. -/
def get (m : Dict) (n : ℤ) : Value := ((m.find? fun p => isKey n p.1).map Prod.snd).getD .null

def map : Value → Parse Dict
  | .map m => do
    reject (m.any fun p => !isInt p.1) invalidIdentityState
    return m
  | _ => .error invalidIdentityState

def exactMap (expected : List ℤ) (value : Value) : Parse Dict := do
  let raw ← map value
  reject (raw.length ≠ expected.length ∨ ¬keySet raw expected) invalidIdentityState
  return raw

def bytes (length : Option ℕ) : Value → Parse Bytes
  | .bytes b => do
    reject (∃ n ∈ length, b.length ≠ n) invalidIdentityState
    return b
  | _ => .error invalidIdentityState

def uint : Value → Parse ℕ
  | .int n => do
    reject (n < 0) invalidIdentityState
    return n.toNat
  | _ => .error invalidIdentityState

def string : Value → Parse Str
  | .text s => .ok s
  | _ => .error invalidIdentityState

def list : Value → Parse (List Value)
  | .array xs => .ok xs
  | _ => .error invalidIdentityState

def requireOne : Value → Parse Unit
  | .int n => reject (n ≠ 1) invalidIdentityState
  | _ => .error invalidIdentityState

def optionalString : Value → Parse (Option Str)
  | .null => .ok none
  | .text s => .ok (some s)
  | _ => .error invalidIdentityState

/-! ### Envelopes -/

structure ParsedAuthorization where
  operation : ℕ
  generation : ℕ
  threshold : ℕ
  predecessorHash : Bytes
  deriving DecidableEq, Repr

structure ParsedEnvelope where
  envelopeBytes : Bytes
  updateBytes : Bytes
  ownerName : Bytes
  ownerPublicKey : Bytes
  sequence : ℕ
  stateHash : Bytes
  authorization : Option ParsedAuthorization
  signers : SignerSet := []
  proofs : List ProofEntry
  deriving DecidableEq, Repr

/-- The loop of `parseSignerSet`; the last entry of `result` holds the previous id. -/
def parseSigners : List Value → SignerSet → Parse SignerSet
  | [], result => return result
  | item :: items, result => do
    let entry ← exactMap [1, 2] item
    let signerId ← string (get entry 1)
    let idBytes ← orRaise invalidIdentityState (utf8 signerId)
    let publicKey ← bytes (some keyBytes) (get entry 2)
    reject (idBytes = [] ∨ maxSignerIdBytes < idBytes.length ∨
      (∃ e ∈ result, e.1 = signerId ∨ e.2 = publicKey) ∨
      ∃ e ∈ result.getLast?, bytesLt (utf8Raw e.1) idBytes = false) invalidIdentityState
    parseSigners items (result ++ [(signerId, publicKey)])

def parseSignerSet (value : Value) : Parse SignerSet := do
  let raw ← list value
  reject (raw.length ≠ 3) invalidIdentityState
  parseSigners raw []

def parseProofItems : List Value → List ProofEntry → Parse (List ProofEntry)
  | [], proofs => return proofs
  | item :: items, proofs => do
    let entry ← exactMap [1, 2] item
    let signerId ← optionalString (get entry 1)
    reject (signerId ∈ proofs.map Prod.fst) invalidIdentityState
    let idBytes ← orRaise invalidIdentityState (utf8 (signerId.getD []))
    reject (signerId.isSome ∧ (idBytes = [] ∨ maxSignerIdBytes < idBytes.length)) invalidIdentityState
    reject (∃ p ∈ proofs.getLast?, bytesLt (proofKey p) idBytes = false) invalidIdentityState
    let signature ← bytes (some signatureBytes) (get entry 2)
    parseProofItems items (proofs ++ [(signerId, signature)])

def parseProofs (value : Value) : Parse (List ProofEntry) := do
  let raw ← list value
  reject (maxProofs < raw.length) invalidIdentityState
  parseProofItems raw []

section

variable (C : Primitives)

def verify (publicKey updateBytes signature : Bytes) : Bool := C.verify publicKey (C.sha256 updateBytes) signature

def parseLegacy (ownerName : Bytes) (outer : Dict) (envelopeBytes : Bytes) : Parse ParsedEnvelope := do
  let updateBytes ← bytes none (get outer 1)
  let signature ← bytes (some signatureBytes) (get outer 2)
  let decodedUpdate ← exactMap [1, 2, 3] (← decodeCanonical updateBytes)
  let record ← exactMap [1, 2] (get decodedUpdate 1)
  let envelopeOwner ← bytes none (get record 1)
  let ownerKey ← bytes (some keyBytes) (get record 2)
  reject (envelopeOwner ≠ ownerName) invalidIdentityState
  requireValidUtf8 envelopeOwner
  let payload ← map (get decodedUpdate 2)
  reject (payload ≠ []) invalidIdentityState
  let sequence ← uint (get decodedUpdate 3)
  reject (verify C ownerKey updateBytes signature = false) invalidIdentityState
  return { envelopeBytes, updateBytes, ownerName := envelopeOwner, ownerPublicKey := ownerKey, sequence,
           stateHash := C.sha256 updateBytes, authorization := none, proofs := [] }

def parseVersionOne (ownerName : Bytes) (outer : Dict) (envelopeBytes : Bytes) : Parse ParsedEnvelope := do
  let updateBytes ← bytes none (get outer 2)
  let decodedUpdate ← exactMap [1, 2, 3, 4] (← decodeCanonical updateBytes)
  let record ← exactMap [1, 2] (get decodedUpdate 1)
  let envelopeOwner ← bytes none (get record 1)
  let ownerKey ← bytes (some keyBytes) (get record 2)
  reject (envelopeOwner ≠ ownerName) invalidIdentityState
  requireValidUtf8 envelopeOwner
  let payload ← map (get decodedUpdate 2)
  reject (payload ≠ []) invalidIdentityState
  let sequence ← uint (get decodedUpdate 3)
  let rawAuthorization ← exactMap [1, 2, 3, 4, 5, 6, 7] (get decodedUpdate 4)
  requireOne (get rawAuthorization 1)
  requireOne (get rawAuthorization 2)
  let operation ← uint (get rawAuthorization 3)
  reject (operation ∉ [1, 2, 3, 4, 5]) invalidIdentityState
  let generation ← uint (get rawAuthorization 4)
  let threshold ← uint (get rawAuthorization 5)
  let predecessorHash ← bytes (some keyBytes) (get rawAuthorization 7)
  let signers ← parseSignerSet (get rawAuthorization 6)
  let proofs ← parseProofs (get outer 3)
  return { envelopeBytes, updateBytes, ownerName := envelopeOwner, ownerPublicKey := ownerKey, sequence,
           stateHash := C.sha256 updateBytes,
           authorization := some { operation, generation, threshold, predecessorHash }, signers, proofs }

def requireVersionOne : Value → Parse Unit
  | .int n => if n = 1 then return () else if 1 < n then .error unsupportedIdentityState
      else .error invalidIdentityState
  | _ => .error invalidIdentityState

def parseEnvelope (ownerName envelopeBytes : Bytes) : Parse ParsedEnvelope := do
  let outer ← map (← decodeCanonical envelopeBytes)
  if keySet outer [1, 2] then parseLegacy C ownerName outer envelopeBytes
  else if keySet outer [1, 2, 3] then do
    requireVersionOne (get outer 1)
    parseVersionOne C ownerName outer envelopeBytes
  else .error invalidIdentityState

/-! ### Transitions -/

structure VerifiedState where
  envelopeBytes : Bytes
  ownerName : Bytes
  ownerPublicKey : Bytes
  sequence : ℕ
  stateHash : Bytes
  predecessorOwnerPublicKey : Option Bytes
  predecessorStateHash : Option Bytes
  generation : Option ℕ
  threshold : Option ℕ
  signers : SignerSet
  deriving DecidableEq, Repr

def VerifiedState.from (candidate : ParsedEnvelope) (previous : Option VerifiedState) : VerifiedState where
  envelopeBytes := candidate.envelopeBytes
  ownerName := candidate.ownerName
  ownerPublicKey := candidate.ownerPublicKey
  sequence := candidate.sequence
  stateHash := candidate.stateHash
  predecessorOwnerPublicKey := previous.map VerifiedState.ownerPublicKey
  predecessorStateHash := candidate.authorization.map ParsedAuthorization.predecessorHash
  generation := candidate.authorization.map ParsedAuthorization.generation
  threshold := candidate.authorization.map ParsedAuthorization.threshold
  signers := candidate.signers

/-- `signers.singleOrNull { it.signerId == signerId }`. -/
def singleSigner (signers : SignerSet) (signerId : Str) : Option Bytes :=
  match signers.filter fun e => e.1 == signerId with
  | [e] => some e.2
  | _ => none

def verifiedIds (update : Bytes) (signers : SignerSet) : List ProofEntry → Parse (List Str)
  | [] => return []
  | proof :: proofs => do
    let signerId ← orRaise invalidIdentityState proof.1
    let publicKey ← orRaise invalidIdentityState (singleSigner signers signerId)
    reject (verify C publicKey update proof.2 = false) invalidIdentityState
    let rest ← verifiedIds update signers proofs
    return signerId :: rest

def verifyThresholdProofs (candidate : ParsedEnvelope) (signers : SignerSet) (threshold : ℕ) : Parse Unit := do
  let ids ← verifiedIds C candidate.updateBytes signers candidate.proofs
  reject (ids.dedup.length < threshold) invalidIdentityState

/-- `checkNotNull`, whose failure is an `IllegalStateException`. -/
def checkNotNull {α : Type} : Option α → Parse α := orRaise other

def single : List ProofEntry → Parse ProofEntry
  | [p] => .ok p
  | _ => .error invalidIdentityState

def verifyOperation (candidate : ParsedEnvelope) (a : ParsedAuthorization) (predecessor : VerifiedState) :
    Parse Unit :=
  if a.operation = 2 then do
    reject (predecessor.signers = [] ∨ candidate.ownerPublicKey ≠ predecessor.ownerPublicKey ∨
      some a.generation ≠ predecessor.generation ∨ some a.threshold ≠ predecessor.threshold ∨
      candidate.signers ≠ predecessor.signers) invalidIdentityState
    verifyThresholdProofs C candidate predecessor.signers (← checkNotNull predecessor.threshold)
  else if a.operation = 3 then do
    reject (predecessor.signers = [] ∨ candidate.ownerPublicKey ≠ predecessor.ownerPublicKey)
      invalidIdentityState
    let generation ← checkNotNull predecessor.generation
    reject (a.generation ≤ generation ∨ a.threshold ≠ 2 ∨ candidate.signers = predecessor.signers)
      invalidIdentityState
    verifyThresholdProofs C candidate predecessor.signers 2
  else if a.operation = 4 then do
    reject (predecessor.signers ≠ [] ∨ candidate.ownerPublicKey ≠ predecessor.ownerPublicKey ∨
      a.generation ≠ 1 ∨ a.threshold ≠ 2 ∨ candidate.ownerPublicKey ∉ candidate.signers.map Prod.snd)
      invalidIdentityState
    let proof ← single candidate.proofs
    let signerId ← orRaise invalidIdentityState proof.1
    let signer ← orRaise invalidIdentityState (singleSigner candidate.signers signerId)
    reject (signer ≠ candidate.ownerPublicKey ∨
      verify C candidate.ownerPublicKey candidate.updateBytes proof.2 = false) invalidIdentityState
  else if a.operation = 5 then do
    reject (candidate.ownerPublicKey = predecessor.ownerPublicKey) invalidIdentityState
    if predecessor.signers = [] then do
      reject (a.generation ≠ 1 ∨ a.threshold ≠ 2 ∨ candidate.ownerPublicKey ∉ candidate.signers.map Prod.snd)
        invalidIdentityState
      let proof ← single candidate.proofs
      reject (proof.1.isSome ∨ verify C predecessor.ownerPublicKey candidate.updateBytes proof.2 = false)
        invalidIdentityState
    else do
      reject (some a.generation ≠ predecessor.generation ∨ some a.threshold ≠ predecessor.threshold ∨
        candidate.signers ≠ predecessor.signers) invalidIdentityState
      verifyThresholdProofs C candidate predecessor.signers (← checkNotNull predecessor.threshold)
  else .error invalidIdentityState

def verifyTransition (expectedOwnerName : Bytes) (candidate : ParsedEnvelope) (previous : Option VerifiedState) :
    Parse VerifiedState := do
  reject (candidate.ownerName ≠ expectedOwnerName) invalidIdentityState
  match candidate.authorization with
  | none => do
    reject previous.isSome invalidIdentityState
    return .from candidate none
  | some a =>
    if a.operation = 1 then do
      reject (previous.isSome ∨ candidate.sequence ≠ 1 ∨ a.generation ≠ 1 ∨ a.threshold ≠ 2 ∨
        a.predecessorHash ≠ zeroHash) invalidIdentityState
      verifyThresholdProofs C candidate candidate.signers 2
      return .from candidate none
    else do
      let predecessor ← orRaise invalidIdentityState previous
      reject (predecessor.ownerName ≠ candidate.ownerName ∨ candidate.sequence ≠ predecessor.sequence + 1 ∨
        a.predecessorHash ≠ predecessor.stateHash) invalidIdentityState
      verifyOperation C candidate a predecessor
      return .from candidate (some predecessor)

/-! ### Resolving a history -/

structure VerifiedIdentityState where
  ownerNameBytes : Bytes
  ownerPublicKey : Bytes
  sequence : ℕ
  stateHash : Bytes
  predecessorOwnerPublicKey : Option Bytes
  predecessorStateHash : Option Bytes
  generation : Option ℕ
  threshold : Option ℕ
  signerSet : SignerSet
  envelopeBytes : Bytes
  predecessorEnvelopes : List Bytes
  deriving DecidableEq, Repr

def publicState (s : VerifiedState) (predecessorEnvelopes : List Bytes) : VerifiedIdentityState where
  ownerNameBytes := s.ownerName
  ownerPublicKey := s.ownerPublicKey
  sequence := s.sequence
  stateHash := s.stateHash
  predecessorOwnerPublicKey := s.predecessorOwnerPublicKey
  predecessorStateHash := s.predecessorStateHash
  generation := s.generation
  threshold := s.threshold
  signerSet := s.signers
  envelopeBytes := s.envelopeBytes
  predecessorEnvelopes := predecessorEnvelopes

def requireHistoryBudget (envelopeBytes alreadyFetchedBytes : ℕ) : Parse Unit :=
  reject (envelopeBytes = 0 ∨ maxEncodedBytes < envelopeBytes ∨
    maxHistoryTotalBytes < envelopeBytes + alreadyFetchedBytes) invalidIdentityState

variable {W : Type} (lookup : Bytes → Prog W WalletError (Option Bytes))

/-- The walk to the anchor with `remaining` lookups left; `visited` holds the envelopes parsed so
far, oldest first, and `total` their size. -/
def collect (ownerName : Bytes) :
    ℕ → List ParsedEnvelope → ℕ → Bytes → Prog W WalletError (List ParsedEnvelope)
  | remaining, visited, total, current => do
    let parsed ← Prog.lift (parseEnvelope C ownerName current)
    Prog.reject (parsed.stateHash ∈ visited.map ParsedEnvelope.stateHash) invalidIdentityState
    match parsed.authorization.filter fun a => a.operation ≠ 1 with
    | none => return parsed :: visited
    | some a =>
      match remaining with
      | 0 => Prog.raise invalidIdentityState
      | remaining + 1 => do
        let predecessor ← lookup a.predecessorHash
        let predecessor ← Prog.lift (orRaise invalidIdentityState predecessor)
        Prog.lift (requireHistoryBudget predecessor.length total)
        collect ownerName remaining (parsed :: visited) (total + predecessor.length) predecessor

def verifyAll (ownerName : Bytes) (envelopes : List ParsedEnvelope) : Parse (Option VerifiedState) :=
  envelopes.foldlM (fun previous parsed => some <$> verifyTransition C ownerName parsed previous) none

def resolve (ownerName headEnvelope : Bytes) : Prog W WalletError VerifiedIdentityState := do
  Prog.reject (ownerName = []) invalidIdentityState
  Prog.lift (requireValidUtf8 ownerName)
  Prog.lift (requireHistoryBudget headEnvelope.length 0)
  let envelopes ← collect C lookup ownerName maxPredecessorDepth [] headEnvelope.length headEnvelope
  let verified ← Prog.lift (verifyAll C ownerName envelopes)
  let verified ← Prog.lift (checkNotNull verified)
  return publicState verified ((envelopes.reverse.drop 1).map ParsedEnvelope.envelopeBytes)

end

end DecentWallet.Kotlin
