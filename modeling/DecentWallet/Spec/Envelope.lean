import DecentWallet.Lib.CborDict
import DecentWallet.Lib.Prog

/-! `decent_wallet/identity.py`, the pure half: signed updates, proof lists and the parser of one
Identity envelope on top of the state before it. -/

namespace DecentWallet

open Cbor

/-- The functions the core calls in other libraries: `hashlib.sha256`, Ed25519 `verify` (public key,
message, signature; a key or signature it cannot load counts as a failed check) and `cbor2`, whose
exceptions are `none`. -/
structure Platform where
  sha256 : Bytes → Bytes
  verify : Bytes → Bytes → Bytes → Bool
  loads : Bytes → Option Value
  dumps : Value → Option Bytes

inductive IdentityError where
  | invalidIdentityState
  | invalidIdentityRequest
  | transportFailure
  | stalePublication
  | expiredPublication
  | typeError
  | keyError
  | encodeError
  deriving DecidableEq, Repr

open IdentityError

abbrev Dict := List (Value × Value)

/-! ### Python objects -/

def Cbor.Value.isBytes (b : Bytes) : Value → Bool
  | .bytes x => x == b
  | _ => false

/-- `k == n` for a dictionary key: an equal bool or float finds the entry of an integer. -/
def pyEqInt (n : ℤ) : Value → Bool
  | .int m => m == n
  | .bool b => (if b then 1 else 0) == n
  | .num (some q) => q == n
  | _ => false

def pyGet (m : Dict) (n : ℤ) : Option Value := (m.find? fun p => pyEqInt n p.1).map Prod.snd

def item (m : Dict) (n : ℤ) : Except IdentityError Value := orRaise keyError (pyGet m n)

def isInt : Value → Bool
  | .int _ => true
  | _ => false

/-- `set(m) == ks` for a dictionary whose keys are all integers. -/
def keySet (m : Dict) (ks : List ℤ) : Prop := (∀ n ∈ intKeys m, n ∈ ks) ∧ ∀ n ∈ ks, n ∈ intKeys m

instance (m : Dict) (ks : List ℤ) : Decidable (keySet m ks) := inferInstanceAs (Decidable (_ ∧ _))

def hashable : Value → Bool
  | .array _ => false
  | .map _ => false
  | _ => true

/-! ### Field checks -/

def keyLength : ℕ := 32

def signatureLength : ℕ := 64

def maxPredecessorDepth : ℕ := 1024

def zeroHash : Bytes := List.replicate keyLength 0

def requireUint : Value → Except IdentityError ℕ
  | .int n => do
    reject (n < 0) invalidIdentityRequest
    return n.toNat
  | _ => .error invalidIdentityRequest

def requireBytes (length : Option ℕ) : Value → Except IdentityError Bytes
  | .bytes b => do
    reject (∃ n ∈ length, b.length ≠ n) invalidIdentityRequest
    return b
  | _ => .error invalidIdentityRequest

def requireStr : Value → Except IdentityError Str
  | .text s => .ok s
  | _ => .error invalidIdentityState

def requireList : Value → Except IdentityError (List Value)
  | .array xs => .ok xs
  | _ => .error invalidIdentityState

def requireDict : Value → Except IdentityError Dict
  | .map m => .ok m
  | _ => .error invalidIdentityState

def requireOne : Value → Except IdentityError Unit
  | .int n => reject (n ≠ 1) invalidIdentityState
  | _ => .error invalidIdentityState

def requireExactKeys (expected : List ℤ) : Value → Except IdentityError Dict
  | .map m => do
    reject (m.any (fun p => !isInt p.1) ∨ ¬keySet m expected) invalidIdentityState
    return m
  | _ => .error invalidIdentityState

def validateOwnerName (b : Bytes) : Except IdentityError Bytes := do
  reject (b = []) invalidIdentityRequest
  let _ ← orRaise invalidIdentityRequest (utf8Decode b)
  return b

section

variable (P : Platform)

def requireCanonical (data : Bytes) : Except IdentityError Value := do
  reject (data = []) invalidIdentityState
  let decoded ← orRaise invalidIdentityState (P.loads data)
  let again ← orRaise invalidIdentityState (P.dumps decoded)
  reject (again ≠ data) invalidIdentityState
  return decoded

end

/-! ### Signed updates -/

abbrev SignerSet := List (Str × Bytes)

/-- The normalised authorization; its version and policy fields are always 1. -/
structure Authorization where
  operation : ℕ
  generation : ℕ
  threshold : ℕ
  signers : SignerSet
  predecessor : Bytes
  deriving DecidableEq, Repr

/-- The loop over the signer entries; `seen` holds the entries before this one. -/
def normalizeSigners : List Value → SignerSet → Except IdentityError SignerSet
  | [], seen => return seen
  | entry :: entries, seen => do
    let entry ← requireExactKeys [1, 2] entry
    let signerId ← item entry 1
    let publicKey ← requireBytes (some keyLength) (← item entry 2)
    let signerId ← requireStr signerId
    reject (signerId = []) invalidIdentityState
    let signerIdBytes ← orRaise invalidIdentityState (utf8 signerId)
    reject (256 < signerIdBytes.length) invalidIdentityState
    reject (signerId ∈ seen.map Prod.fst ∨ publicKey ∈ seen.map Prod.snd) invalidIdentityState
    normalizeSigners entries (seen ++ [(signerId, publicKey)])

/-- `sorted(.., key=id.encode("utf-8"))`. -/
def sortSigners (s : SignerSet) : SignerSet :=
  s.insertionSort fun a b => bytesLe (utf8Raw a.1) (utf8Raw b.1) = true

def validateAuthorization (value : Value) : Except IdentityError Authorization := do
  let auth ← requireExactKeys [1, 2, 3, 4, 5, 6, 7] value
  let version ← requireUint (← item auth 1)
  reject (version ≠ 1) invalidIdentityState
  let policy ← requireUint (← item auth 2)
  reject (policy ≠ 1) invalidIdentityState
  let operation ← requireUint (← item auth 3)
  reject (operation ∉ [1, 2, 3, 4, 5]) invalidIdentityState
  let epoch ← requireUint (← item auth 4)
  let threshold ← requireUint (← item auth 5)
  let signerSet ← requireList (← item auth 6)
  reject (signerSet = []) invalidIdentityState
  let normalized ← normalizeSigners signerSet []
  reject (normalized ≠ sortSigners normalized ∨ ¬(1 ≤ threshold ∧ threshold ≤ normalized.length))
    invalidIdentityState
  let predecessor ← requireBytes (some keyLength) (← item auth 7)
  return { operation, generation := epoch, threshold, signers := normalized, predecessor }

structure SignedUpdate where
  record : Dict
  payload : Dict
  sequence : ℕ
  authorization : Option Authorization

section

variable (P : Platform)

def decodeSignedUpdate (signedUpdateBytes : Bytes) : Except IdentityError SignedUpdate := do
  let decoded ← requireCanonical P signedUpdateBytes
  let decoded ← requireDict decoded
  reject (decoded.any fun p => !isInt p.1) invalidIdentityState
  reject (¬keySet decoded [1, 2, 3] ∧ ¬keySet decoded [1, 2, 3, 4]) invalidIdentityState
  let record ← requireExactKeys [1, 2] (← item decoded 1)
  let payload ← requireExactKeys [] (← item decoded 2)
  let sequence ← requireUint (← item decoded 3)
  let authorization ← (pyGet decoded 4).mapM validateAuthorization
  return { record, payload, sequence, authorization }

def verifySignature (publicKey update signature : Bytes) : Except IdentityError Unit :=
  reject (P.verify publicKey (P.sha256 update) signature = false) invalidIdentityState

end

/-! ### Proof lists -/

/-- A proof names its signer, or nobody when the predecessor's owner key signs. -/
abbrev ProofEntry := Option Str × Bytes

def proofKey (p : ProofEntry) : Bytes := match p.1 with
  | none => []
  | some s => utf8Raw s

def requireSignerId : Value → Except IdentityError (Option Str)
  | .null => .ok none
  | .text s => do
    reject (s = []) invalidIdentityState
    return some s
  | _ => .error invalidIdentityState

def normalizeProofs : List Value → List ProofEntry → Except IdentityError (List ProofEntry)
  | [], seen => return seen
  | proof :: proofs, seen => do
    let proof ← requireExactKeys [1, 2] proof
    let signerId ← requireSignerId (← item proof 1)
    let signature ← requireBytes (some signatureLength) (← item proof 2)
    reject (∃ s ∈ signerId, utf8 s = none) invalidIdentityState
    reject (signerId ∈ seen.map Prod.fst) invalidIdentityState
    normalizeProofs proofs (seen ++ [(signerId, signature)])

def sortProofs (ps : List ProofEntry) : List ProofEntry :=
  ps.insertionSort fun a b => bytesLe (proofKey a) (proofKey b) = true

def validateProofList (proofs : Value) : Except IdentityError (List ProofEntry) := do
  let proofs ← requireList proofs
  let normalized ← normalizeProofs proofs []
  reject (normalized ≠ sortProofs normalized) invalidIdentityState
  return normalized

/-! ### States and the envelope parser -/

structure IdentityState where
  ownerName : Bytes
  ownerPublicKey : Bytes
  sequence : ℕ
  signedUpdateBytes : Bytes
  envelopeBytes : Bytes
  stateHash : Bytes
  generation : Option ℕ
  threshold : Option ℕ
  signerSet : SignerSet
  predecessorEnvelopes : List Bytes := []
  deriving DecidableEq, Repr

/-- `dict(signer_set).get(signer_id)`; a later entry of the same id would win. -/
def lookupSigner (signers : SignerSet) (signerId : Str) : Option Bytes :=
  (signers.reverse.find? fun e => e.1 == signerId).map Prod.snd

/-- `candidate_keys.get(signer_id) != record[2]`, where nobody's key is `None`. -/
def signerKeyIs (signers : SignerSet) (signerId : Option Str) (key : Value) : Bool :=
  match signerId.bind (lookupSigner signers), key with
  | some k, .bytes b => k == b
  | none, .null => true
  | _, _ => false

def checkOperation (ownerName : Bytes) (sequence : ℕ) (ownerKey : Value) (auth : Authorization)
    (previous : Option IdentityState) : Except IdentityError Unit :=
  if auth.operation = 1 then do
    reject (previous.isSome ∨ sequence ≠ 1 ∨ auth.generation ≠ 1 ∨ auth.predecessor ≠ zeroHash)
      invalidIdentityState
    reject (auth.threshold ≠ 2 ∨ auth.signers.length ≠ 3) invalidIdentityState
  else if auth.operation = 4 then
    reject (auth.generation ≠ 1 ∨ auth.threshold ≠ 2 ∨ auth.signers.length ≠ 3) invalidIdentityState
  else if auth.operation = 2 then
    match previous with
    | none => .error invalidIdentityState
    | some p => reject (p.signerSet = [] ∨ p.ownerName ≠ ownerName ∨ ¬ownerKey.isBytes p.ownerPublicKey ∨
        p.stateHash ≠ auth.predecessor ∨ sequence ≠ p.sequence + 1 ∨ some auth.generation ≠ p.generation ∨
        some auth.threshold ≠ p.threshold ∨ auth.signers ≠ p.signerSet) invalidIdentityState
  else if auth.operation = 3 then do
    reject (auth.threshold ≠ 2 ∨ auth.signers.length ≠ 3) invalidIdentityState
    match previous with
    | none => .error invalidIdentityState
    | some p => reject (p.signerSet = [] ∨ p.ownerName ≠ ownerName ∨ ¬ownerKey.isBytes p.ownerPublicKey ∨
        p.stateHash ≠ auth.predecessor ∨ sequence ≠ p.sequence + 1 ∨ auth.generation ≤ p.generation.getD 0 ∨
        auth.signers = p.signerSet) invalidIdentityState
  else if auth.operation = 5 then
    match previous with
    | none => .error invalidIdentityState
    | some p => do
      reject (p.ownerName ≠ ownerName ∨ ownerKey.isBytes p.ownerPublicKey ∨
        p.stateHash ≠ auth.predecessor ∨ sequence ≠ p.sequence + 1) invalidIdentityState
      if p.signerSet ≠ [] then
        reject (some auth.generation ≠ p.generation ∨ some auth.threshold ≠ p.threshold ∨
          auth.signers ≠ p.signerSet) invalidIdentityState
      else do
        reject (auth.generation ≠ 1 ∨ auth.threshold ≠ 2 ∨ auth.signers.length ≠ 3) invalidIdentityState
        -- `record[2] not in {..}` hashes `record[2]` first
        reject (hashable ownerKey = false) typeError
        reject (¬∃ e ∈ auth.signers, ownerKey.isBytes e.2) invalidIdentityState
  else .error invalidIdentityState

section

variable (P : Platform)

def verifyProofs (keys : SignerSet) (update : Bytes) : List ProofEntry → Except IdentityError (List Str)
  | [] => return []
  | proof :: proofs => do
    let signerId ← orRaise invalidIdentityState proof.1
    let publicKey ← orRaise invalidIdentityState (lookupSigner keys signerId)
    verifySignature P publicKey update proof.2
    let rest ← verifyProofs keys update proofs
    return signerId :: rest

def checkUpgrade (sequence : ℕ) (ownerKey : Value) (auth : Authorization) (proofs : List ProofEntry)
    (previous : Option IdentityState) : Except IdentityError Unit :=
  if auth.operation = 4 then
    match previous, proofs with
    | some p, [proof] => reject (signerKeyIs auth.signers proof.1 ownerKey = false ∨ p.signerSet ≠ [] ∨
        ¬ownerKey.isBytes p.ownerPublicKey ∨ p.stateHash ≠ auth.predecessor ∨ sequence ≠ p.sequence + 1)
        invalidIdentityState
    | _, _ => .error invalidIdentityState
  else .ok ()

/-- `len(valid_signers)` counts a set. -/
def countSigners (auth : Authorization) (valid : List Str) : Except IdentityError Unit :=
  if auth.operation = 4 then reject (valid.dedup.length ≠ 1) invalidIdentityState
  else reject (valid.dedup.length < auth.threshold) invalidIdentityState

def checkProofs (update : Bytes) (auth : Authorization) (proofs : List ProofEntry)
    (previous : Option IdentityState) : Except IdentityError Unit :=
  let previousKeys := match previous with
    | some p => p.signerSet
    | none => []
  match previous with
  | some p =>
    if auth.operation = 5 ∧ p.signerSet = [] then
      match proofs with
      | [(none, signature)] => verifySignature P p.ownerPublicKey update signature
      | _ => .error invalidIdentityState
    else do
      let valid ← verifyProofs P (if auth.operation ∈ [2, 3, 5] then previousKeys else auth.signers) update proofs
      countSigners auth valid
  | none => do
    let valid ← verifyProofs P (if auth.operation ∈ [2, 3, 5] then previousKeys else auth.signers) update proofs
    countSigners auth valid

def parseIdentityEnvelope (ownerName envelopeBytes : Bytes) (previous : Option IdentityState) :
    Except IdentityError IdentityState := do
  let outer ← requireCanonical P envelopeBytes
  let outer ← requireDict outer
  reject (outer.any fun p => !isInt p.1) invalidIdentityState
  if keySet outer [1, 2] then
    let updateBytes ← requireBytes none (← item outer 1)
    let signature ← requireBytes (some signatureLength) (← item outer 2)
    let u ← decodeSignedUpdate P updateBytes
    reject (u.authorization.isSome ∨ u.payload ≠ [] ∨ ¬(← item u.record 1).isBytes ownerName)
      invalidIdentityState
    let publicKey ← requireBytes (some keyLength) (← item u.record 2)
    verifySignature P publicKey updateBytes signature
    return { ownerName, ownerPublicKey := publicKey, sequence := u.sequence,
             signedUpdateBytes := updateBytes, envelopeBytes, stateHash := P.sha256 updateBytes,
             generation := none, threshold := none, signerSet := [] }
  else
    reject (¬keySet outer [1, 2, 3]) invalidIdentityState
    requireOne (← item outer 1)
    let updateBytes ← requireBytes none (← item outer 2)
    let u ← decodeSignedUpdate P updateBytes
    let auth ← orRaise invalidIdentityState u.authorization
    reject (u.payload ≠ [] ∨ ¬(← item u.record 1).isBytes ownerName) invalidIdentityState
    let ownerKey ← item u.record 2
    checkOperation ownerName u.sequence ownerKey auth previous
    let proofs ← validateProofList (← item outer 3)
    checkUpgrade u.sequence ownerKey auth proofs previous
    checkProofs P updateBytes auth proofs previous
    let publicKey ← requireBytes (some keyLength) ownerKey
    return { ownerName, ownerPublicKey := publicKey, sequence := u.sequence,
             signedUpdateBytes := updateBytes, envelopeBytes, stateHash := P.sha256 updateBytes,
             generation := some auth.generation, threshold := some auth.threshold,
             signerSet := auth.signers,
             predecessorEnvelopes := match previous with
               | some p => if auth.operation ∈ [2, 3, 4, 5] then p.envelopeBytes :: p.predecessorEnvelopes else []
               | none => [] }

end

end DecentWallet
