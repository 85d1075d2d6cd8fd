import DecentWallet.Spec.Adapter

/-! `RegistryAdapter`: publication of a bundle, preparation and dispatch of an owner-key rotation, and
its confirmation from a fresh remote read. -/

namespace DecentWallet

open Cbor IdentityError

structure PublicationResult (P : Platform) where
  status : PublishStatus
  envelopeBytes : Option Bytes := none
  acceptedState : Option IdentityState := none
  reason : Option String := none
  publication : Option (RotationPublication P) := none
  deriving DecidableEq

structure RotationDispatchResult (P : Platform) where
  status : PublishStatus
  confirmation : Option RotationConfirmation := none
  rejection : Option (RotationDispatchRejection P) := none
  reason : Option String := none
  deriving DecidableEq

def sameState : Option IdentityState → Option IdentityState → Bool
  | none, none => true
  | some l, some r => l.stateHash = r.stateHash && l.envelopeBytes = r.envelopeBytes
  | _, _ => false

/-- A bundle whose publication waits for the consent handler. -/
structure PendingPublication (P : Platform) where
  bundle : IdentityBundle P
  request : ConsentRequest
  envelope : Bytes
  transcript : ConsentTranscript P

section

variable {P : Platform} {σ : Type} (A : Adapter σ)

def publicationTranscript (bundle : IdentityBundle P) (r : ConsentRequest) (operation : Str) (envelope : Bytes)
    (generation : Option ℕ) : Except IdentityError (ConsentTranscript P) :=
  ConsentTranscript.make P
    { authenticatedOrigin := r.authenticatedOrigin, environment := r.environment, operation,
      payloadHash := P.sha256 envelope, purpose := r.purpose, capability := r.capability,
      expiresAt := r.expiresAt, replayNonce := r.replayNonce, sequence := bundle.draft.sequence, generation,
      reviewPayload := envelope, signerId := none, signerPublicKey := none }

/-! ### Publishing a bundle -/

/-- `_confirm`: one read of the head, parsed on the state the caller published on. -/
def confirm (ownerName envelope : Bytes) (previousState : Option IdentityState) : Net σ (Option IdentityState) := do
  let ownerName ← Prog.lift (validateOwnerName ownerName)
  match ← getIdentityEnvelope A ownerName with
  | some (.bytes candidate) =>
    match parseIdentityEnvelope P ownerName candidate previousState with
    | .ok state => return if state.envelopeBytes = envelope then some state else none
    | .error _ => return none
  | _ => return none

def confirmPublication (ownerName envelope : Bytes) (previousState : Option IdentityState) (failureReason : String) :
    Net σ (PublicationResult P) := do
  match ← confirm (P := P) A ownerName envelope previousState with
  | some accepted => return { status := .confirmed, envelopeBytes := some envelope, acceptedState := some accepted }
  | none => return { status := .unknown, envelopeBytes := some envelope, reason := some failureReason }

def publishBundleBegin (bundle : IdentityBundle P) (r : ConsentRequest) :
    Net σ (PublicationResult P ⊕ PendingPublication P) := do
  Prog.reject (bundle.proofs = []) invalidIdentityRequest
  Prog.reject (bundle.draft.isRotation = true) invalidIdentityRequest
  let envelope ← Prog.lift bundle.finalize
  if ← isOwnerLatched A.id bundle.draft.ownerName then
    return .inl { status := .failed, envelopeBytes := some envelope, reason := some "owner-key rotation is unresolved" }
  else
    let current ← readState P A bundle.draft.ownerName
    if sameState bundle.draft.previousState current = false then
      return .inl { status := .stale, envelopeBytes := some envelope,
                    reason := some "accepted state changed before publication" }
    else
      let generation := match bundle.draft.authorization with
        | some a => some a.generation
        | none => bundle.draft.previousState.bind IdentityState.generation
      let transcript ← Prog.lift
        (publicationTranscript bundle r (operationName bundle.draft.authorization) envelope generation)
      match ← consentGateBegin P A bundle.draft.ownerName r with
      | some (status, reason) => return .inl { status, envelopeBytes := some envelope, reason := some reason }
      | none => return .inr ⟨bundle, r, envelope, transcript⟩

def publishBundleWrite (bundle : IdentityBundle P) (envelope : Bytes) (expected : Option Bytes) (expiresAt : ℤ) :
    Net σ (PublicationResult P) := do
  if ← isOwnerLatched A.id bundle.draft.ownerName then
    return { status := .failed, envelopeBytes := some envelope, reason := some "owner-key rotation is unresolved" }
  else
    match ← putIdentityEnvelope A bundle.draft.ownerName envelope expected expiresAt with
    | .stale => return { status := .stale, envelopeBytes := some envelope,
                         reason := some "conditional publication rejected" }
    | .expired => return { status := .expired, envelopeBytes := some envelope, reason := some "consent expired" }
    | .raised =>
      confirmPublication A bundle.draft.ownerName envelope bundle.draft.previousState
        "independent readback did not confirm dispatch"
    | .returned =>
      confirmPublication A bundle.draft.ownerName envelope bundle.draft.previousState
        "readback did not confirm exact envelope"

def publishBundleEnd (p : PendingPublication P) (decision : ConsentDecision) : Net σ (PublicationResult P) := do
  match ← consentGateEnd A p.request decision with
  | some (status, reason) => return { status, envelopeBytes := some p.envelope, reason := some reason }
  | none =>
    -- re-read after consent so that a change during the approval is stale
    let current ← readState P A p.bundle.draft.ownerName
    if sameState p.bundle.draft.previousState current = false then
      return { status := .stale, envelopeBytes := some p.envelope,
               reason := some "accepted state changed before publication" }
    else if p.request.expiresAt ≤ (← readTime A) then
      return { status := .expired, envelopeBytes := some p.envelope, reason := some "consent expired" }
    else publishBundleWrite A p.bundle p.envelope (current.map IdentityState.stateHash) p.request.expiresAt

def publishBundle (bundle : IdentityBundle P) (r : ConsentRequest)
    (consent : ConsentTranscript P → Net σ ConsentDecision) : Net σ (PublicationResult P) := do
  match ← publishBundleBegin A bundle r with
  | .inl result => return result
  | .inr p => publishBundleEnd A p (← askConsent consent p.transcript)

/-! ### Preparing an owner-key rotation -/

def environmentMismatch : PublicationResult P := { status := .failed, reason := some "rotation environment mismatch" }

/-- One read of the accepted state between two checks of the environment; `none` when it is the one
the draft stands on. -/
def checkPredecessor (bundle : IdentityBundle P) (environment : Str) (envelope : Bytes) :
    Net σ (Option (PublicationResult P)) := do
  let current ← readState P A bundle.draft.ownerName
  if (← rotationEnvironmentMatches A (some environment)) = false then return some environmentMismatch
  else if sameState bundle.draft.previousState current = false then
    return some { status := .stale, envelopeBytes := some envelope,
                  reason := some "accepted state changed before publication" }
  else return none

def checkRotationRequest (bundle : IdentityBundle P) (r : ConsentRequest) : Net σ (Option (PublicationResult P)) := do
  if ← isOwnerLatched A.id bundle.draft.ownerName then
    return some { status := .failed, reason := some "owner-key rotation is unresolved" }
  else
    Prog.reject (bundle.draft.isRotation = false) invalidIdentityRequest
    if (← rotationTransportAvailable A) = false then
      return some { status := .failed, reason := some "rotation transport capability unavailable" }
    else if ¬validRegistryEnvironment r.environment then return some environmentMismatch
    else if (← rotationEnvironmentMatches A (some r.environment)) = false then return some environmentMismatch
    else return none

def preparePublicationBegin (bundle : IdentityBundle P) (r : ConsentRequest) :
    Net σ (PublicationResult P ⊕ PendingPublication P) := do
  match ← checkRotationRequest A bundle r with
  | some result => return .inl result
  | none =>
    let envelope ← Prog.lift bundle.finalize
    Prog.reject (bundle.draft.previousState = none) invalidIdentityRequest
    match ← checkPredecessor A bundle r.environment envelope with
    | some result => return .inl result
    | none =>
      let transcript ← Prog.lift (publicationTranscript bundle r (str "owner-key-rotation") envelope
        (bundle.draft.authorization.map Authorization.generation))
      match ← consentGateBegin P A bundle.draft.ownerName r with
      | some (status, reason) => return .inl { status, envelopeBytes := some envelope, reason := some reason }
      | none => return .inr ⟨bundle, r, envelope, transcript⟩

def mintPublication (p : PendingPublication P) (previousState : IdentityState) : Net σ (PublicationResult P) := do
  let id ← newObject
  return { status := .ready, envelopeBytes := some p.envelope,
           publication := some
             { id, environment := p.request.environment, bundle := p.bundle, envelopeBytes := p.envelope,
               previousState, expiresAt := p.request.expiresAt, adapter := A.id } }

def preparePublicationCheck (p : PendingPublication P) : Net σ (Option (PublicationResult P)) := do
  if (← rotationEnvironmentMatches A (some p.request.environment)) = false then return some environmentMismatch
  else
    match ← checkPredecessor A p.bundle p.request.environment p.envelope with
    | some result => return some result
    | none =>
      if p.request.expiresAt ≤ (← readTime A) then
        return some { status := .expired, envelopeBytes := some p.envelope, reason := some "consent expired" }
      else return none

def preparePublicationEnd (p : PendingPublication P) (decision : ConsentDecision) : Net σ (PublicationResult P) := do
  match ← consentGateEnd A p.request decision with
  | some (status, reason) => return { status, envelopeBytes := some p.envelope, reason := some reason }
  | none =>
    match ← preparePublicationCheck A p with
    | some result => return result
    | none =>
      match p.bundle.draft.previousState with
      | none => Prog.raise invalidIdentityRequest
      | some previousState => mintPublication A p previousState

def prepareOwnerKeyRotationPublication (bundle : IdentityBundle P) (r : ConsentRequest)
    (consent : ConsentTranscript P → Net σ ConsentDecision) : Net σ (PublicationResult P) := do
  match ← preparePublicationBegin A bundle r with
  | .inl result => return result
  | .inr p => preparePublicationEnd A p (← askConsent consent p.transcript)

/-! ### Confirming an owner-key rotation -/

def confirmsIntent (b : RotationBinding) (state : IdentityState) : Bool :=
  match decodeSignedUpdate P state.signedUpdateBytes with
  | .ok u =>
    match u.authorization with
    | some a => a.operation = 5 && a.predecessor = b.predecessorStateHash && state.ownerName = b.ownerName &&
        state.ownerPublicKey = b.successorOwnerPublicKey && u.sequence = b.sequence
    | none => false
  | .error _ => false

def confirmsPredecessor (b : RotationBinding) (state predecessor : IdentityState) : Bool :=
  predecessor.ownerPublicKey = b.predecessorOwnerPublicKey && predecessor.stateHash = b.predecessorStateHash &&
    state.sequence = predecessor.sequence + 1

/-- The verified state behind the remote bytes, `none` where a check refuses them. -/
def verifyRemote (b : RotationBinding) (remote : Bytes) : Net σ (Option IdentityState) := do
  let state ← parseStateWithHistory P A b.ownerName remote b.environment
  if confirmsIntent (P := P) b state = false then return none
  else if (← rotationEnvironmentMatches A b.environment) = false then return none
  else
    match ← getIdentityEnvelopeByHash A b.ownerName b.predecessorStateHash with
    | some (.bytes e) =>
      let predecessor ← parseStateWithHistory P A b.ownerName e b.environment
      if confirmsPredecessor b state predecessor = false then return none else return some state
    | _ => return none

/-- `except Exception: return None`. -/
def verifyRemoteOrNone (b : RotationBinding) (remote : Bytes) : Net σ (Option IdentityState) :=
  Prog.tryCatch (verifyRemote (P := P) A b remote) fun _ => pure none

/-- The remote bytes, `none` unless they are bytes of the latched hash read between two checks of the
environment. -/
def readLatchedRemote (b : RotationBinding) : Net σ (Option Bytes) := do
  match ← getRemoteIdentityEnvelope A b.ownerName with
  | some answer =>
    if (← rotationEnvironmentMatches A b.environment) = false then return none
    else
      match answer with
      | .bytes remote => return if P.sha256 remote = b.envelopeHash then some remote else none
      | _ => return none
  | none => return none

def confirmationPossible (b : RotationBinding) : Net σ Bool := do
  if b.environment = none then return false
  else if (← rotationEnvironmentMatches A b.environment) = false then return false
  else rotationTransportAvailable A

def confirmOwnerKeyRotation (intent : RotationDispatchIntent) : Net σ (Option RotationConfirmation) := do
  Prog.reject ((← registerLatch A.id intent.toRotationBinding false) = false) invalidIdentityRequest
  let b := intent.toRotationBinding
  if (← confirmationPossible A b) = false then return none
  else
    match ← readLatchedRemote (P := P) A b with
    | none => return none
    | some remote =>
      match ← verifyRemoteOrNone (P := P) A b remote with
      | none => return none
      | some state =>
        if (← rotationEnvironmentMatches A b.environment) = false then return none
        else return some { binding := b, stateHash := state.stateHash, adapter := A.id }

/-! ### Dispatching an owner-key rotation -/

def dispatchMismatch : RotationDispatchResult P :=
  { status := .unknown, reason := some "rotation environment mismatch" }

def confirmedOr (reason : String) (c : Option RotationConfirmation) : RotationDispatchResult P :=
  match c with
  | some confirmation => { status := .confirmed, confirmation := some confirmation }
  | none => { status := .unknown, reason := some reason }

/-- The rejection, if nothing was written or seen and it may clear the latch. -/
def prewriteRejection (pub : RotationPublication P) (b : RotationBinding) (status : PublishStatus) (reason : String)
    (clearableRejection : Bool) : Net σ (RotationDispatchResult P) := do
  if clearableRejection = false then
    return { status := .unknown, reason := some "pre-write outcome cannot safely clear the durable intent" }
  else if (← rotationEnvironmentMatches A b.environment) = false then return dispatchMismatch
  else return { status, rejection := some { id := ← newObject, publication := pub }, reason := some reason }

def prewriteResult (pub : RotationPublication P) (intent : RotationDispatchIntent) (status : PublishStatus)
    (reason : String) (candidateObservedLocally clearableRejection : Bool) : Net σ (RotationDispatchResult P) := do
  if (← rotationEnvironmentMatches A intent.environment) = false then return dispatchMismatch
  else
    match ← getRemoteIdentityEnvelope A intent.ownerName with
    | none => return { status := .unknown, reason := some "independent readback unavailable after pre-write rejection" }
    | some answer =>
      if (← rotationEnvironmentMatches A intent.environment) = false then return dispatchMismatch
      else
        match answer with
        | .bytes remote =>
          if candidateObservedLocally || P.sha256 remote = intent.envelopeHash then
            return confirmedOr "candidate observed but independent confirmation incomplete"
              (← confirmOwnerKeyRotation (P := P) A intent)
          else prewriteRejection A pub intent.toRotationBinding status reason clearableRejection
        | _ => return { status := .unknown,
                        reason := some "independent readback unavailable after pre-write rejection" }

def dispatchWrite (pub : RotationPublication P) (intent : RotationDispatchIntent) : Net σ (RotationDispatchResult P) :=
  do match ← putIdentityEnvelope A pub.bundle.draft.ownerName pub.envelopeBytes (some pub.previousState.stateHash)
      pub.expiresAt with
  | .stale => prewriteResult A pub intent .stale "conditional publication rejected" false false
  | .expired => prewriteResult A pub intent .expired "consent expired" false true
  | .raised =>
    return confirmedOr "independent readback did not confirm dispatch" (← confirmOwnerKeyRotation (P := P) A intent)
  | .returned =>
    return confirmedOr "readback did not confirm exact envelope" (← confirmOwnerKeyRotation (P := P) A intent)

/-- `except IdentityAdapterError`. -/
def IdentityError.isAdapterError : IdentityError → Bool
  | typeError => false
  | keyError => false
  | encodeError => false
  | _ => true

/-- `read_state`, with `none` where it raised an adapter error. -/
def tryReadState (ownerName : Bytes) : Net σ (Option (Option IdentityState)) :=
  Prog.tryCatch (some <$> readState P A ownerName) fun e => if e.isAdapterError then pure none else Prog.raise e

def dispatchLatched (pub : RotationPublication P) (intent : RotationDispatchIntent) :
    Net σ (RotationDispatchResult P) := do
  Prog.reject ((← isLatched A.id intent.toRotationBinding) = false) invalidIdentityRequest
  if (← rotationTransportAvailable A) = false then
    prewriteResult A pub intent .failed "rotation transport capability unavailable" false false
  else
    match ← tryReadState (P := P) A pub.bundle.draft.ownerName with
    | none => prewriteResult A pub intent .failed "pre-write state validation failed" false false
    | some current =>
      if sameState (some pub.previousState) current = false then
        prewriteResult A pub intent .stale "accepted state changed before publication"
          (current.any fun s => P.sha256 s.envelopeBytes = intent.envelopeHash) false
      else if pub.expiresAt ≤ (← readTime A) then
        prewriteResult A pub intent .expired "consent expired" false true
      else if (← rotationEnvironmentMatches A intent.environment) = false then return dispatchMismatch
      else dispatchWrite A pub intent

/-- The permit fits the publication and the latch, and the publication was unused; it is used now. -/
def claimPublication (pub : RotationPublication P) (permit : RotationDispatchPermit) : Net σ Bool := do
  let b := permit.intent.toRotationBinding
  if pub.matchesIntent b = false then return false
  else if (← isDispatchReady A.id b) = false then return false
  else if pub.adapter ≠ A.id then return false
  else consume pub.id

def dispatchOwnerKeyRotation (pub : RotationPublication P) (permit : RotationDispatchPermit) :
    Net σ (RotationDispatchResult P) := do
  Prog.reject ((← claimPublication A pub permit) = false) invalidIdentityRequest
  if (← rotationEnvironmentMatches A permit.intent.environment) = false then return dispatchMismatch
  else dispatchLatched A pub permit.intent

end

end DecentWallet
