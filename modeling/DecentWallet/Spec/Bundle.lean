import DecentWallet.Spec.History

/-! `decent_wallet/identity.py`: drafts bound to the state before them, detached proofs, and the
bundles that a quorum finalizes to an envelope. -/

namespace DecentWallet

open Cbor IdentityError

/-! ### Registry environments -/

def utf16Length (s : Str) : ℕ := (s.map fun c => if 0xFFFF < c then 2 else 1).sum

def whitespace : Str :=
  [0x09, 0x0A, 0x0B, 0x0C, 0x0D, 0x20, 0x85, 0xA0, 0x1680, 0x2000, 0x2001, 0x2002, 0x2003, 0x2004, 0x2005,
   0x2006, 0x2007, 0x2008, 0x2009, 0x200A, 0x2028, 0x2029, 0x202F, 0x205F, 0x3000]

def validRegistryEnvironment (s : Str) : Prop :=
  s.all isScalar = true ∧ 1 ≤ utf16Length s ∧ utf16Length s ≤ 256 ∧ ∃ c ∈ s, c ∉ whitespace

instance (s : Str) : Decidable (validRegistryEnvironment s) := inferInstanceAs (Decidable (_ ∧ _))

/-! ### Drafts -/

section

variable (P : Platform)

def parsePreviousStateChain (ownerName : Bytes) (envelope : Option Bytes) (history : List Bytes) :
    Except IdentityError (Option IdentityState) :=
  match envelope with
  | none => do
    reject (history ≠ []) invalidIdentityRequest
    return none
  | some e => do
    let previous ← history.reverse.foldlM
      (fun p e => do return some (← parseIdentityEnvelope P ownerName e p)) none
    return some (← parseIdentityEnvelope P ownerName e previous)

end

def requireComplete2Of3 (auth : Authorization) : Except IdentityError Unit :=
  reject (auth.threshold ≠ 2 ∨ auth.signers.length ≠ 3) invalidIdentityRequest

def validateDraftTransition (ownerName ownerPublicKey : Bytes) (sequence : ℕ)
    (authorization : Option Authorization) (previousState : Option IdentityState) :
    Except IdentityError Unit :=
  match previousState, authorization with
  | none, none => reject (sequence ≠ 1) invalidIdentityRequest
  | none, some a => do
    reject (sequence ≠ 1) invalidIdentityRequest
    reject (a.operation ≠ 1 ∨ a.generation ≠ 1 ∨ a.predecessor ≠ zeroHash) invalidIdentityRequest
    requireComplete2Of3 a
  | some p, none => do
    reject (ownerName ≠ p.ownerName ∨ sequence ≠ p.sequence + 1) invalidIdentityRequest
    reject (p.signerSet ≠ [] ∨ ownerPublicKey ≠ p.ownerPublicKey) invalidIdentityRequest
  | some p, some a => do
    reject (ownerName ≠ p.ownerName ∨ sequence ≠ p.sequence + 1) invalidIdentityRequest
    reject (a.predecessor ≠ p.stateHash) invalidIdentityRequest
    if a.operation = 5 then
      reject (ownerPublicKey = p.ownerPublicKey) invalidIdentityRequest
      if p.signerSet = [] then
        reject (a.generation ≠ 1 ∨ a.threshold ≠ 2 ∨ a.signers.length ≠ 3 ∨
          ownerPublicKey ∉ a.signers.map Prod.snd) invalidIdentityRequest
      else
        reject (some a.generation ≠ p.generation ∨ some a.threshold ≠ p.threshold ∨ a.signers ≠ p.signerSet)
          invalidIdentityRequest
    else
      reject (ownerPublicKey ≠ p.ownerPublicKey) invalidIdentityRequest
      if p.signerSet = [] then
        reject (a.operation ≠ 4 ∨ a.generation ≠ 1) invalidIdentityRequest
        requireComplete2Of3 a
        reject (p.ownerPublicKey ∉ a.signers.map Prod.snd) invalidIdentityRequest
      else if a.operation = 2 then
        reject (some a.generation ≠ p.generation ∨ some a.threshold ≠ p.threshold ∨ a.signers ≠ p.signerSet)
          invalidIdentityRequest
      else if a.operation = 3 then
        reject (a.generation ≤ p.generation.getD 0) invalidIdentityRequest
        requireComplete2Of3 a
        reject (a.signers = p.signerSet) invalidIdentityRequest
      else .error invalidIdentityRequest

/-- What the properties of a draft decode from its bytes. -/
structure DraftContents where
  ownerName : Bytes
  ownerPublicKey : Bytes
  sequence : ℕ
  authorization : Option Authorization
  previousState : Option IdentityState
  deriving DecidableEq, Repr

section

variable (P : Platform)

def draftContents (signedUpdateBytes : Bytes) (previousStateEnvelope : Option Bytes)
    (previousStateHistory : List Bytes) : Except IdentityError DraftContents := do
  let u ← decodeSignedUpdate P signedUpdateBytes
  reject (u.payload ≠ [] ∨ maxPredecessorDepth < previousStateHistory.length) invalidIdentityRequest
  let ownerName ← requireBytes none (← item u.record 1)
  let ownerName ← validateOwnerName ownerName
  let ownerPublicKey ← requireBytes (some keyLength) (← item u.record 2)
  let previousState ← parsePreviousStateChain P ownerName previousStateEnvelope previousStateHistory
  validateDraftTransition ownerName ownerPublicKey u.sequence u.authorization previousState
  return { ownerName, ownerPublicKey, sequence := u.sequence, authorization := u.authorization, previousState }

/-- A draft exists only with contents that pass `__post_init__`. -/
structure IdentityDraft where
  signedUpdateBytes : Bytes
  previousStateEnvelope : Option Bytes
  previousStateHistory : List Bytes
  contents : DraftContents
  valid : draftContents P signedUpdateBytes previousStateEnvelope previousStateHistory = .ok contents

end

section

variable {P : Platform}

namespace IdentityDraft

def make (signedUpdateBytes : Bytes) (previousStateEnvelope : Option Bytes) (previousStateHistory : List Bytes) :
    Except IdentityError (IdentityDraft P) :=
  match h : draftContents P signedUpdateBytes previousStateEnvelope previousStateHistory with
  | .ok c => .ok ⟨signedUpdateBytes, previousStateEnvelope, previousStateHistory, c, h⟩
  | .error e => .error e

def ownerName (d : IdentityDraft P) : Bytes := d.contents.ownerName

def ownerPublicKey (d : IdentityDraft P) : Bytes := d.contents.ownerPublicKey

def sequence (d : IdentityDraft P) : ℕ := d.contents.sequence

def authorization (d : IdentityDraft P) : Option Authorization := d.contents.authorization

def previousState (d : IdentityDraft P) : Option IdentityState := d.contents.previousState

def isRotation (d : IdentityDraft P) : Bool := d.authorization.any fun a => a.operation == 5

@[ext] theorem ext {d e : IdentityDraft P} (h1 : d.signedUpdateBytes = e.signedUpdateBytes)
    (h2 : d.previousStateEnvelope = e.previousStateEnvelope)
    (h3 : d.previousStateHistory = e.previousStateHistory) : d = e := by
  obtain ⟨u, p, l, c, hd⟩ := d
  obtain ⟨u', p', l', c', he⟩ := e
  obtain rfl : u = u' := h1
  obtain rfl : p = p' := h2
  obtain rfl : l = l' := h3
  obtain rfl : c = c' := Except.ok.inj (hd.symm.trans he)
  rfl

/-- Drafts are compared by their three fields. -/
instance : DecidableEq (IdentityDraft P) := fun d e =>
  decidable_of_iff (d.signedUpdateBytes = e.signedUpdateBytes ∧
    d.previousStateEnvelope = e.previousStateEnvelope ∧ d.previousStateHistory = e.previousStateHistory)
    ⟨fun h => ext h.1 h.2.1 h.2.2, fun h => h ▸ ⟨rfl, rfl, rfl⟩⟩

def validateOwnerKeyRotationBinding (d : IdentityDraft P)
    (predecessorOwnerPublicKey successorOwnerPublicKey : Bytes) : Except IdentityError Unit := do
  reject (predecessorOwnerPublicKey.length ≠ keyLength ∨ successorOwnerPublicKey.length ≠ keyLength)
    invalidIdentityRequest
  reject (d.isRotation = false ∨ d.previousState.map IdentityState.ownerPublicKey ≠ some predecessorOwnerPublicKey ∨
    d.ownerPublicKey ≠ successorOwnerPublicKey) invalidIdentityRequest

end IdentityDraft

end

/-! ### Proofs -/

structure IdentityProof where
  signerId : Option Str
  signerPublicKey : Bytes
  signature : Bytes
  idOk : ∀ s ∈ signerId, ValidId s ∧ (utf8Raw s).length ≤ 256
  keyOk : signerPublicKey.length = keyLength
  signatureOk : signature.length = signatureLength
  deriving DecidableEq

namespace IdentityProof

def make (signerId : Option Str) (signerPublicKey signature : Bytes) : Except IdentityError IdentityProof :=
  if h : (∀ s ∈ signerId, ValidId s ∧ (utf8Raw s).length ≤ 256) ∧ signerPublicKey.length = keyLength ∧
      signature.length = signatureLength then
    .ok ⟨signerId, signerPublicKey, signature, h.1, h.2.1, h.2.2⟩
  else .error invalidIdentityRequest

def entry (p : IdentityProof) : ProofEntry := (p.signerId, p.signature)

def order (p : IdentityProof) : Bytes := proofKey p.entry

end IdentityProof

def sortIdentityProofs (ps : List IdentityProof) : List IdentityProof :=
  ps.insertionSort fun a b => bytesLe a.order b.order = true

/-! ### Bundles -/

structure IdentityBundle (P : Platform) where
  draft : IdentityDraft P
  proofs : List IdentityProof
  sorted : proofs = sortIdentityProofs proofs
  distinct : (proofs.map IdentityProof.signerId).Nodup
  deriving DecidableEq

/-- The key or the signers whose proofs finalize a version-1 draft. -/
inductive Authority where
  | ownerKey (key : Bytes)
  | signers (keys : SignerSet)
  deriving DecidableEq, Repr

def authority (auth : Authorization) (previousState : Option IdentityState) : Except IdentityError Authority :=
  match previousState with
  | none => if auth.operation = 3 ∨ auth.operation = 5 then .error invalidIdentityRequest
      else .ok (.signers auth.signers)
  | some p =>
    if auth.operation = 5 ∧ p.signerSet = [] then .ok (.ownerKey p.ownerPublicKey)
    else if auth.operation = 3 ∨ auth.operation = 5 then do
      reject (p.signerSet = []) invalidIdentityRequest
      return .signers p.signerSet
    else .ok (.signers auth.signers)

section

variable (P : Platform)

def verifyBundleSignature (publicKey update signature : Bytes) : Except IdentityError Unit :=
  reject (P.verify publicKey (P.sha256 update) signature = false) invalidIdentityRequest

def checkBundleProof (authority : Authority) (update : Bytes) (proof : IdentityProof) :
    Except IdentityError (Option Str) :=
  match authority with
  | .ownerKey key => do
    reject (proof.signerId ≠ none ∨ proof.signerPublicKey ≠ key) invalidIdentityRequest
    verifyBundleSignature P proof.signerPublicKey update proof.signature
    return none
  | .signers keys => do
    let signerId ← orRaise invalidIdentityRequest proof.signerId
    let expectedKey ← orRaise invalidIdentityRequest (lookupSigner keys signerId)
    reject (expectedKey ≠ proof.signerPublicKey) invalidIdentityRequest
    verifyBundleSignature P expectedKey update proof.signature
    return some signerId

def checkBundleQuorum (auth : Authorization) (ownerPublicKey : Bytes) (authority : Authority)
    (proofs : List IdentityProof) (validSigners : List Str) : Except IdentityError Unit :=
  if auth.operation = 4 then
    reject (proofs.length ≠ 1 ∨ validSigners.dedup.length ≠ 1 ∨
      proofs.head?.map IdentityProof.signerPublicKey ≠ some ownerPublicKey) invalidIdentityRequest
  else
    match authority with
    | .ownerKey _ => reject (proofs.length ≠ 1) invalidIdentityRequest
    | .signers _ => reject (validSigners.dedup.length < auth.threshold) invalidIdentityRequest

def canonicalBytes (v : Value) : Except IdentityError Bytes := orRaise encodeError (P.dumps v)

def legacyEnvelope (update signature : Bytes) : Except IdentityError Bytes :=
  canonicalBytes P (dict [.bytes update, .bytes signature])

def finalizeLegacy (update ownerPublicKey : Bytes) : List IdentityProof → Except IdentityError Bytes
  | [proof] => do
    reject (proof.signerId ≠ none ∨ proof.signerPublicKey ≠ ownerPublicKey) invalidIdentityRequest
    verifyBundleSignature P proof.signerPublicKey update proof.signature
    legacyEnvelope P update proof.signature
  | _ => .error invalidIdentityRequest

def finalizeVersionOne (update ownerPublicKey : Bytes) (auth : Authorization)
    (previousState : Option IdentityState) (proofs : List IdentityProof) : Except IdentityError Bytes := do
  let authority ← authority auth previousState
  let validSigners ← proofs.mapM (checkBundleProof P authority update)
  checkBundleQuorum auth ownerPublicKey authority proofs validSigners.reduceOption
  canonicalBytes P (dict [.int 1, .bytes update, .array (proofs.map fun p => proofValue p.entry)])

/-- `except InvalidIdentityState: raise InvalidIdentityRequest`. -/
def asRequest {α : Type} : Except IdentityError α → Except IdentityError α
  | .error .invalidIdentityState => .error invalidIdentityRequest
  | r => r

def IdentityBundle.sealProofs {P : Platform} (b : IdentityBundle P) : Except IdentityError Bytes :=
  match b.draft.authorization with
  | none => finalizeLegacy P b.draft.signedUpdateBytes b.draft.ownerPublicKey b.proofs
  | some auth =>
    finalizeVersionOne P b.draft.signedUpdateBytes b.draft.ownerPublicKey auth b.draft.previousState b.proofs

def IdentityBundle.finalize {P : Platform} (b : IdentityBundle P) : Except IdentityError Bytes := do
  reject (b.proofs = []) invalidIdentityRequest
  let envelope ← b.sealProofs
  let _ ← asRequest (parseIdentityEnvelope P b.draft.ownerName envelope b.draft.previousState)
  return envelope

/-! ### Transfer form -/

def optionalBytes : Option Bytes → Value
  | none => .null
  | some b => .bytes b

def bytesItems : List Value → Option (List Bytes) :=
  List.mapM fun v => match v with
    | .bytes b => some b
    | _ => none

/-- `except Exception: raise InvalidIdentityRequest`. -/
def orRequest {α : Type} (x : Except IdentityError α) : Except IdentityError α :=
  x.mapError fun _ => invalidIdentityRequest

/-- `value[1]` is the integer 1 or 2; true for version 1. -/
def requireTransferVersion : Value → Except IdentityError Bool
  | .int 1 => .ok true
  | .int 2 => .ok false
  | _ => .error invalidIdentityRequest

def requireOptionalBytes : Value → Except IdentityError (Option Bytes)
  | .null => .ok none
  | .bytes b => .ok (some b)
  | _ => .error invalidIdentityRequest

/-- Version 1 holds at most one predecessor, version 2 a list. -/
def requireDraftHistory (first : Bool) (v : Value) : Except IdentityError (List Bytes) :=
  match first, v with
  | true, v => do return (← requireOptionalBytes v).toList
  | false, .array vs => orRaise invalidIdentityRequest (bytesItems vs)
  | false, _ => .error invalidIdentityRequest

namespace IdentityDraft

variable {P : Platform}

def toCbor (d : IdentityDraft P) : Except IdentityError Bytes :=
  canonicalBytes P (dict [.int 2, .bytes d.signedUpdateBytes, optionalBytes d.previousStateEnvelope,
    .array (d.previousStateHistory.map Value.bytes)])

def fromCbor (data : Bytes) : Except IdentityError (IdentityDraft P) := orRequest do
  let value ← requireExactKeys [1, 2, 3, 4] (← requireCanonical P data)
  let first ← requireTransferVersion (← item value 1)
  let envelope ← requireOptionalBytes (← item value 3)
  let history ← requireDraftHistory first (← item value 4)
  make (← requireBytes none (← item value 2)) envelope history

end IdentityDraft

def requireOptionalStr : Value → Except IdentityError (Option Str)
  | .null => .ok none
  | .text s => .ok (some s)
  | _ => .error invalidIdentityRequest

def proofFromValue (v : Value) : Except IdentityError IdentityProof := do
  let entry ← requireExactKeys [1, 2, 3] v
  IdentityProof.make (← requireOptionalStr (← item entry 1)) (← requireBytes none (← item entry 2))
    (← requireBytes none (← item entry 3))

namespace IdentityBundle

variable {P : Platform}

def make (draft : IdentityDraft P) (proofs : List IdentityProof) : Except IdentityError (IdentityBundle P) :=
  if h : proofs = sortIdentityProofs proofs ∧ (proofs.map IdentityProof.signerId).Nodup then
    .ok ⟨draft, proofs, h.1, h.2⟩
  else .error invalidIdentityRequest

def merge (b c : IdentityBundle P) : Except IdentityError (IdentityBundle P) := do
  reject (b.draft ≠ c.draft) invalidIdentityRequest
  let combined := b.proofs ++ c.proofs
  reject (¬(combined.map IdentityProof.signerId).Nodup) invalidIdentityRequest
  make b.draft (sortIdentityProofs combined)

def toCbor (b : IdentityBundle P) : Except IdentityError Bytes := do
  canonicalBytes P (dict [.int 2, .bytes (← b.draft.toCbor), .array (b.proofs.map fun p =>
    dict [signerIdValue p.signerId, .bytes p.signerPublicKey, .bytes p.signature])])

def fromCbor (data : Bytes) : Except IdentityError (IdentityBundle P) := orRequest do
  let value ← requireExactKeys [1, 2, 3] (← requireCanonical P data)
  let _ ← requireTransferVersion (← item value 1)
  let draft ← requireBytes none (← item value 2)
  let proofs ← (← requireList (← item value 3)).mapM proofFromValue
  make (← IdentityDraft.fromCbor draft) proofs

end IdentityBundle

end

end DecentWallet
