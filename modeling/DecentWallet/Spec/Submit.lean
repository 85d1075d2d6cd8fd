import DecentWallet.Spec.Publish

/-! `RegistryAdapter`: `submit_identity` and `sign_draft`. A call runs in three parts: up to the consent handler, up to
the signer, and the rest. -/

namespace DecentWallet

open Cbor IdentityError

structure SubmissionResult (P : Platform) where
  status : PublishStatus
  transcript : ConsentTranscript P
  envelopeBytes : Option Bytes := none
  signedUpdateBytes : Option Bytes := none
  proofBytes : Option Bytes := none
  acceptedState : Option IdentityState := none
  reason : Option String := none
  draft : Option (IdentityDraft P) := none
  identityProof : Option IdentityProof := none

structure SubmitRequest (P : Platform) where
  ownerName : Bytes
  ownerPublicKey : Bytes
  signerPublicKey : Bytes
  operation : Str
  consent : ConsentRequest
  authorization : Option Value := none
  signerId : Option Str := none
  draft : Option (IdentityDraft P) := none

/-- A submission that waits for the consent handler or for the signer. -/
structure PendingSubmission (P : Platform) where
  request : SubmitRequest P
  current : Option IdentityState
  auth : Option Authorization
  update : Bytes
  transcript : ConsentTranscript P

/-- What the signer answers when it is asked; `none` where it raises. -/
structure SignerAnswers where
  publicKey : Option Bytes
  isActive : Bool
  signature : Option Bytes
  deriving DecidableEq, Repr

/-! ### The checks before consent -/

def validateTransition (current : Option IdentityState) (auth : Authorization) (signerId : Option Str)
    (signerPublicKey : Bytes) : Except IdentityError Unit :=
  match current with
  | none => do
    reject (auth.operation ≠ 1 ∨ auth.generation ≠ 1 ∨ auth.predecessor ≠ zeroHash) invalidIdentityRequest
    requireComplete2Of3 auth
    reject (signerId.bind (lookupSigner auth.signers) ≠ some signerPublicKey) invalidIdentityRequest
  | some s =>
    if auth.operation = 5 then
      if s.signerSet = [] then
        reject (auth.generation ≠ 1 ∨ auth.threshold ≠ 2 ∨ auth.signers.length ≠ 3 ∨ signerId ≠ none ∨
          signerPublicKey ≠ s.ownerPublicKey) invalidIdentityRequest
      else
        reject (some auth.generation ≠ s.generation ∨ some auth.threshold ≠ s.threshold ∨ auth.signers ≠ s.signerSet ∨
          signerId.bind (lookupSigner s.signerSet) ≠ some signerPublicKey) invalidIdentityRequest
    else if s.signerSet = [] then do
      reject (auth.operation ≠ 4 ∨ auth.generation ≠ 1 ∨ auth.predecessor ≠ s.stateHash) invalidIdentityRequest
      requireComplete2Of3 auth
      reject (signerPublicKey ≠ s.ownerPublicKey) invalidIdentityRequest
      reject (signerId.bind (lookupSigner auth.signers) ≠ some signerPublicKey) invalidIdentityRequest
    else do
      reject (signerId = none) invalidIdentityRequest
      if auth.operation = 2 then
        reject (some auth.generation ≠ s.generation ∨ some auth.threshold ≠ s.threshold) invalidIdentityRequest
        reject (auth.signers ≠ s.signerSet) invalidIdentityRequest
        reject (signerId.bind (lookupSigner s.signerSet) ≠ some signerPublicKey) invalidIdentityRequest
      else if auth.operation = 3 then
        reject (auth.generation ≤ s.generation.getD 0) invalidIdentityRequest
        requireComplete2Of3 auth
        reject (auth.signers = s.signerSet) invalidIdentityRequest
        reject (signerId.bind (lookupSigner s.signerSet) ≠ some signerPublicKey) invalidIdentityRequest
      else .error invalidIdentityRequest

def nextSequence : Option IdentityState → ℕ
  | none => 1
  | some s => s.sequence + 1

def predecessorsOf (current : Option IdentityState) : List Bytes :=
  (current.map IdentityState.predecessorEnvelopes).getD []

section

variable {P : Platform}

/-- The draft of a request is about the state that was read. A mapping is equal to the draft's authorization where it
is read as that authorization. -/
def checkSubmittedDraft (q : SubmitRequest P) (current : Option IdentityState) : Except IdentityError Unit :=
  match q.draft with
  | none => .ok ()
  | some d => do
    reject (d.previousStateEnvelope ≠ current.map IdentityState.envelopeBytes) invalidIdentityRequest
    reject (d.previousStateHistory ≠ predecessorsOf current) invalidIdentityRequest
    reject (d.ownerName ≠ q.ownerName ∨ d.ownerPublicKey ≠ q.ownerPublicKey) invalidIdentityRequest
    reject (d.authorization ≠ q.authorization.bind fun v => (validateAuthorization v).toOption) invalidIdentityRequest
    reject (d.sequence ≠ nextSequence current) invalidIdentityRequest

def checkAuthorized (q : SubmitRequest P) (current : Option IdentityState) (auth : Authorization) :
    Except IdentityError Unit := do
  reject (q.operation ≠ operationName (some auth)) invalidIdentityRequest
  reject (∃ s ∈ current, s.ownerPublicKey ≠ q.ownerPublicKey ∧ auth.operation ≠ 5) invalidIdentityRequest
  reject (auth.operation = 5 ∧ q.draft = none) invalidIdentityRequest
  reject (∃ s ∈ current, auth.predecessor ≠ s.stateHash) invalidIdentityRequest
  reject (current = none ∧ auth.predecessor ≠ zeroHash) invalidIdentityRequest
  reject (¬(auth.operation = 5 ∧ ∃ s ∈ current, s.signerSet = []) ∧ (q.signerId = none ∨ q.signerId = some []))
    invalidIdentityRequest
  validateTransition current auth q.signerId q.signerPublicKey

def checkLegacy (q : SubmitRequest P) (current : Option IdentityState) : Except IdentityError Unit := do
  reject (∃ s ∈ current, s.ownerPublicKey ≠ q.ownerPublicKey) invalidIdentityRequest
  reject (∃ s ∈ current, s.signerSet ≠ []) invalidIdentityRequest
  reject (q.signerPublicKey ≠ q.ownerPublicKey) invalidIdentityRequest
  reject (q.signerId ≠ none) invalidIdentityRequest

variable (P)

def buildIdentityUpdate (ownerName ownerPublicKey : Bytes) (sequence : ℕ) (authorization : Option Value) :
    Except IdentityError Bytes := do
  let ownerName ← validateOwnerName ownerName
  reject (ownerPublicKey.length ≠ keyLength) invalidIdentityRequest
  let auth ← authorization.mapM validateAuthorization
  canonicalBytes P (updateValue ownerName ownerPublicKey sequence auth)

def submittedUpdate (q : SubmitRequest P) (current : Option IdentityState) :
    Except IdentityError (Option Authorization × Bytes) := do
  checkSubmittedDraft q current
  let auth ← q.authorization.mapM validateAuthorization
  match auth with
  | some a => checkAuthorized q current a
  | none => checkLegacy q current
  let update ← buildIdentityUpdate P q.ownerName q.ownerPublicKey (nextSequence current) (auth.map authorizationValue)
  reject (∃ d ∈ q.draft, update ≠ d.signedUpdateBytes) invalidIdentityRequest
  return (auth, update)

variable {P}

def submissionTranscript (q : SubmitRequest P) (current : Option IdentityState) (auth : Option Authorization)
    (update : Bytes) : Except IdentityError (ConsentTranscript P) :=
  ConsentTranscript.make P
    { authenticatedOrigin := q.consent.authenticatedOrigin, environment := q.consent.environment,
      operation := q.operation, payloadHash := P.sha256 update, purpose := q.consent.purpose,
      capability := q.consent.capability, expiresAt := q.consent.expiresAt, replayNonce := q.consent.replayNonce,
      sequence := nextSequence current,
      generation := match auth with
        | some a => some a.generation
        | none => current.bind IdentityState.generation
      reviewPayload := update, signerId := q.signerId, signerPublicKey := some q.signerPublicKey }

/-! ### After signing -/

def versionedEnvelope (P : Platform) (update : Bytes) (signerId : Str) (signature : Bytes) :
    Except IdentityError Bytes :=
  canonicalBytes P (dict [.int 1, .bytes update, .array [proofValue (some signerId, signature)]])

def proofBytes (P : Platform) (signerId : Option Str) (signature : Bytes) : Except IdentityError Bytes :=
  match signerId with
  | none => .ok signature
  | some i => canonicalBytes P (proofValue (some i, signature))

def draftProof (p : PendingSubmission P) (d : IdentityDraft P) (signature : Bytes) :
    Except IdentityError (SubmissionResult P) := do
  let identityProof ← IdentityProof.make p.request.signerId p.request.signerPublicKey signature
  let proof ← proofBytes P p.request.signerId signature
  return { status := .proofReady, transcript := p.transcript, signedUpdateBytes := some p.update,
           proofBytes := some proof, reason := some "draft proof ready", draft := some d,
           identityProof := some identityProof }

def thresholdProof (p : PendingSubmission P) (signature : Bytes) : Except IdentityError (SubmissionResult P) := do
  reject (p.request.signerId = none) invalidIdentityRequest
  let proof ← proofBytes P p.request.signerId signature
  let draft ← IdentityDraft.make p.update (p.current.map IdentityState.envelopeBytes) (predecessorsOf p.current)
  let identityProof ← IdentityProof.make p.request.signerId p.request.signerPublicKey signature
  return { status := .proofReady, transcript := p.transcript, signedUpdateBytes := some p.update,
           proofBytes := some proof, reason := some "threshold bundle required", draft := some draft,
           identityProof := some identityProof }

def submissionEnvelope (p : PendingSubmission P) (signature : Bytes) : Except IdentityError Bytes :=
  match p.auth with
  | none => legacyEnvelope P p.update signature
  | some _ => do
    let signerId ← orRaise invalidIdentityRequest p.request.signerId
    versionedEnvelope P p.update signerId signature

variable {σ : Type} (A : Adapter σ)

def confirmSubmission (p : PendingSubmission P) (envelope : Bytes) (confirmedReason unknownReason : Option String) :
    Net σ (SubmissionResult P) := do
  match ← confirm (P := P) A p.request.ownerName envelope p.current with
  | some accepted => return { status := .confirmed, transcript := p.transcript, envelopeBytes := some envelope,
                              acceptedState := some accepted, reason := confirmedReason }
  | none => return { status := .unknown, transcript := p.transcript, envelopeBytes := some envelope,
                     reason := unknownReason }

def putSubmission (p : PendingSubmission P) (envelope : Bytes) : Net σ (SubmissionResult P) := do
  match ← putIdentityEnvelope A p.request.ownerName envelope (p.current.map IdentityState.stateHash)
      p.request.consent.expiresAt with
  | .stale => return { status := .stale, transcript := p.transcript, envelopeBytes := some envelope,
                       reason := some "conditional publication rejected" }
  | .expired => return { status := .expired, transcript := p.transcript, envelopeBytes := some envelope,
                         reason := some "consent expired" }
  | .raised =>
    confirmSubmission A p envelope (some "independent readback required") (some "independent readback required")
  | .returned => confirmSubmission A p envelope none (some "readback did not confirm exact envelope")

/-- What is done with a signature once the state has been read again: a proof is handed out, or an envelope is put. -/
def useSignature (p : PendingSubmission P) (signature : Bytes) : Net σ (SubmissionResult P) :=
  match p.request.draft with
  | some d => Prog.lift (draftProof p d signature)
  | none =>
    if p.auth.any fun a => 1 < a.threshold then Prog.lift (thresholdProof p signature)
    else do
      let envelope ← Prog.lift (submissionEnvelope p signature)
      putSubmission A p envelope

/-! ### The call -/

def submitIdentityBegin (q : SubmitRequest P) : Net σ (SubmissionResult P ⊕ PendingSubmission P) := do
  let ownerName ← Prog.lift (validateOwnerName q.ownerName)
  Prog.reject ((← isOwnerLatched A.id ownerName) = true) invalidIdentityRequest
  Prog.reject (q.ownerPublicKey.length ≠ keyLength ∨ q.signerPublicKey.length ≠ keyLength) invalidIdentityRequest
  let current ← readState P A ownerName
  let (auth, update) ← Prog.lift (submittedUpdate P q current)
  let transcript ← Prog.lift (submissionTranscript q current auth update)
  match ← consentGateBegin P A ownerName q.consent with
  | some (status, reason) => return .inl { status, transcript, reason := some reason }
  | none => return .inr ⟨q, current, auth, update, transcript⟩

/-- Has the state changed, or the consent expired, since the checks? -/
def checkSubmission (p : PendingSubmission P) (signed : Option Bytes) (reason : String) :
    Net σ (Option (SubmissionResult P)) := do
  let latest ← readState P A p.request.ownerName
  if sameState p.current latest = false then
    return some { status := .stale, transcript := p.transcript, signedUpdateBytes := signed, reason := some reason }
  else if p.request.consent.expiresAt ≤ (← readTime A) then
    return some { status := .expired, transcript := p.transcript, signedUpdateBytes := signed,
                  reason := some "consent expired" }
  else return none

/-- From the decision to the call of the signer factory; `none` where the signer is asked. -/
def submitIdentitySign (p : PendingSubmission P) (decision : ConsentDecision) : Net σ (Option (SubmissionResult P)) :=
  do match ← consentGateEnd A p.request.consent decision with
  | some (status, reason) => return some { status, transcript := p.transcript, reason := some reason }
  | none =>
    if ← isOwnerLatched A.id p.request.ownerName then
      return some { status := .failed, transcript := p.transcript, reason := some "owner-key rotation is unresolved" }
    else checkSubmission A p none "accepted state changed before signing"

def collectSignature (p : PendingSubmission P) (signer : Option SignerAnswers) :
    Net σ (SubmissionResult P ⊕ Bytes) :=
  let failed : SubmissionResult P :=
    { status := .failed, transcript := p.transcript, reason := some "signing failed" }
  match signer with
  | none => pure (.inl failed)
  | some s =>
    if s.publicKey ≠ some p.request.signerPublicKey then pure (.inl failed)
    else do
      if p.request.consent.expiresAt ≤ (← readTime A) ∨ s.isActive = false then
        return .inl { status := .expired, transcript := p.transcript, reason := some "consent expired" }
      else
        match s.signature with
        | none => return .inl failed
        | some signature =>
          if signature.length = signatureLength ∧
              P.verify p.request.signerPublicKey (P.sha256 p.update) signature = true then return .inr signature
          else return .inl failed

def submitIdentityEnd (p : PendingSubmission P) (signer : Option SignerAnswers) : Net σ (SubmissionResult P) := do
  match ← collectSignature A p signer with
  | .inl result => return result
  | .inr signature =>
    match ← checkSubmission A p (some p.update) "accepted state changed before publication" with
    | some result => return result
    | none => useSignature A p signature

def submitIdentity (q : SubmitRequest P) (consent : ConsentTranscript P → Net σ ConsentDecision)
    (signerFactory : Net σ SignerAnswers) : Net σ (SubmissionResult P) := do
  match ← submitIdentityBegin A q with
  | .inl result => return result
  | .inr p =>
    match ← submitIdentitySign A p (← askConsent consent p.transcript) with
    | some result => return result
    | none =>
      let signer ← Prog.tryCatch (some <$> signerFactory) fun _ => pure none
      submitIdentityEnd A p signer

def signDraftRequest (draft : IdentityDraft P) (signerPublicKey : Bytes) (signerId : Option Str)
    (consent : ConsentRequest) : SubmitRequest P where
  ownerName := draft.ownerName
  ownerPublicKey := draft.ownerPublicKey
  signerPublicKey := signerPublicKey
  operation := operationName draft.authorization
  consent := consent
  authorization := draft.authorization.map authorizationValue
  signerId := signerId
  draft := some draft

/-- `sign_draft`, up to the consent handler. -/
def signDraftBegin (draft : IdentityDraft P) (signerPublicKey : Bytes) (signerId : Option Str)
    (consent : ConsentRequest) : Net σ (SubmissionResult P ⊕ PendingSubmission P) := do
  Prog.reject ((← isOwnerLatched A.id draft.ownerName) = true) invalidIdentityRequest
  submitIdentityBegin A (signDraftRequest draft signerPublicKey signerId consent)

end

end DecentWallet
