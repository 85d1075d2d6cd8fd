import DecentWallet.Spec.Bundle
import DecentWallet.Spec.Transport

/-! `RegistryAdapter`: consent, publication, and the latch registry, permits, confirmations and
rejections of an owner-key rotation. -/

namespace DecentWallet

open Cbor IdentityError

/-! ### Consent -/

inductive ConsentDecision where
  | approved
  | denied
  | cancelled
  | expired
  | failed
  deriving DecidableEq, Repr

inductive PublishStatus where
  | ready
  | confirmed
  | proofReady
  | unknown
  | failed
  | stale
  | denied
  | cancelled
  | expired
  deriving DecidableEq, Repr

def ConsentDecision.value : ConsentDecision → String
  | approved => "approved"
  | denied => "denied"
  | cancelled => "cancelled"
  | expired => "expired"
  | failed => "failed"

def ConsentDecision.status : ConsentDecision → PublishStatus
  | denied => .denied
  | cancelled => .cancelled
  | expired => .expired
  | _ => .failed

structure ConsentRequest where
  authenticatedOrigin : Str
  environment : Str
  purpose : Str
  capability : Str
  expiresAt : ℤ
  replayNonce : Bytes
  deriving DecidableEq, Repr

structure TranscriptFields where
  authenticatedOrigin : Str
  environment : Str
  operation : Str
  payloadHash : Bytes
  purpose : Str
  capability : Str
  expiresAt : ℤ
  replayNonce : Bytes
  sequence : ℕ
  generation : Option ℕ
  reviewPayload : Bytes
  signerId : Option Str
  signerPublicKey : Option Bytes
  deriving DecidableEq, Repr

def TranscriptFields.Ok (P : Platform) (t : TranscriptFields) : Prop :=
  t.authenticatedOrigin ≠ [] ∧ t.environment ≠ [] ∧ t.operation ≠ [] ∧ t.purpose ≠ [] ∧ t.capability ≠ [] ∧
    0 ≤ t.expiresAt ∧ t.payloadHash.length = keyLength ∧ t.replayNonce ≠ [] ∧ t.signerId ≠ some [] ∧
    (∀ k ∈ t.signerPublicKey, k.length = keyLength) ∧ (t.signerPublicKey = none → t.signerId = none) ∧
    t.reviewPayload ≠ [] ∧ P.sha256 t.reviewPayload = t.payloadHash

instance (P : Platform) (t : TranscriptFields) : Decidable (t.Ok P) := inferInstanceAs (Decidable (_ ∧ _))

structure ConsentTranscript (P : Platform) extends TranscriptFields where
  ok : toTranscriptFields.Ok P

def ConsentTranscript.make (P : Platform) (t : TranscriptFields) : Except IdentityError (ConsentTranscript P) :=
  if h : t.Ok P then .ok ⟨t, h⟩ else .error invalidIdentityRequest

/-- `_OPERATION_NAMES`, and the name of a legacy update. -/
def operationName : Option Authorization → Str
  | none => str "identity.update"
  | some a =>
    if a.operation = 1 then str "genesis"
    else if a.operation = 2 then str "ordinary-update"
    else if a.operation = 3 then str "replace-signers"
    else if a.operation = 4 then str "upgrade"
    else str "owner-key-rotation"

section

variable (P : Platform) {σ : Type} (A : Adapter σ)

/-- The replay store's answer, `none` where it or the encoding of its key raised. -/
def reserveReplayNonce (ownerName : Bytes) (r : ConsentRequest) : Net σ (Option Bool) := fun w =>
  match P.dumps (dict [.bytes ownerName, .text r.authenticatedOrigin, .text r.environment, .bytes r.replayNonce]) with
  | none => (.ok none, w)
  | some key =>
    let a := A.replayStore (P.sha256 key) w.state
    (.ok a.1, { w with state := a.2, trail := w.trail ++ [.consume A.id (P.sha256 key) w.state a.1] })

/-- `_consent_gate` up to the call of the handler. -/
def consentGateBegin (ownerName : Bytes) (r : ConsentRequest) : Net σ (Option (PublishStatus × String)) := do
  match ← reserveReplayNonce P A ownerName r with
  | none => return some (.failed, "replay protection unavailable")
  | some false => return some (.failed, "replay rejected")
  | some true =>
    if r.expiresAt ≤ (← readTime A) then return some (.expired, "consent expired")
    else return none

/-- `_consent_gate` after it. -/
def consentGateEnd (r : ConsentRequest) (decision : ConsentDecision) : Net σ (Option (PublishStatus × String)) :=
  if decision ≠ .approved then pure (some (decision.status, decision.value))
  else do
    if r.expiresAt ≤ (← readTime A) then return some (.expired, "consent expired")
    else return none

end

/-- A handler that raises has decided `FAILED`. -/
def askConsent {P : Platform} {σ : Type} (consent : ConsentTranscript P → Net σ ConsentDecision)
    (t : ConsentTranscript P) : Net σ ConsentDecision :=
  Prog.tryCatch (consent t) fun _ => pure .failed

/-! ### The latch registry -/

def RotationBinding.checked (b : RotationBinding) : Option RotationBinding :=
  if b.ownerName ≠ [] ∧ b.predecessorOwnerPublicKey.length = keyLength ∧
      b.successorOwnerPublicKey.length = keyLength ∧ b.predecessorStateHash.length = keyLength ∧
      0 < b.sequence ∧ b.envelopeHash.length = keyLength then some b
  else none

/-- What `RotationDispatchIntent.__post_init__` accepts. -/
def RotationBinding.IntentOk (b : RotationBinding) : Prop :=
  (∀ e ∈ b.environment, validRegistryEnvironment e) ∧ 1 ≤ b.ownerName.length ∧ b.ownerName.length ≤ 1024 * 1024 ∧
    utf8Decode b.ownerName ≠ none ∧ b.predecessorOwnerPublicKey.length = keyLength ∧
    b.successorOwnerPublicKey.length = keyLength ∧ b.predecessorStateHash.length = keyLength ∧
    b.envelopeHash.length = keyLength ∧ 1 ≤ b.sequence

instance (b : RotationBinding) : Decidable b.IntentOk := inferInstanceAs (Decidable (_ ∧ _))

structure RotationDispatchIntent extends RotationBinding where
  ok : toRotationBinding.IntentOk
  deriving DecidableEq

namespace Latches

def isOwnerLatched (l : Latches) (ownerName : Bytes) : Bool := (l ownerName).isSome

def isLatched (l : Latches) (b : RotationBinding) : Bool :=
  match b.checked with
  | none => false
  | some b => (l b.ownerName).any fun c => c.1 = b

def isDispatchReady (l : Latches) (b : RotationBinding) : Bool :=
  match b.checked with
  | none => false
  | some b => l b.ownerName = some (b, true)

def put (l : Latches) (ownerName : Bytes) (entry : Option (RotationBinding × Bool)) : Latches :=
  Function.update l ownerName entry

/-- A read-only registration may add the environment to a binding that has none. -/
def mayReplace (current : RotationBinding × Bool) (b : RotationBinding) (dispatchReady : Bool) : Bool :=
  !dispatchReady && !current.2 && current.1.environment.isNone && b.environment.isSome &&
    { current.1 with environment := b.environment } = b

def register (l : Latches) (b : RotationBinding) (dispatchReady : Bool) : Bool × Latches :=
  match b.checked with
  | none => (false, l)
  | some b =>
    match l b.ownerName with
    | none => (true, l.put b.ownerName (some (b, dispatchReady)))
    | some current =>
      if current.1 ≠ b ∧ mayReplace current b dispatchReady = false then (false, l)
      else (true, l.put b.ownerName (some (b, dispatchReady || current.2)))

def clear (l : Latches) (b : RotationBinding) : Bool × Latches :=
  match b.checked with
  | none => (false, l)
  | some b => if (l b.ownerName).any fun c => c.1 = b then (true, l.put b.ownerName none) else (false, l)

end Latches

namespace World

variable {σ : Type}

def setLatches (w : World σ) (a : ℕ) (l : Latches) : World σ := { w with latches := Function.update w.latches a l }

end World

section

variable {σ : Type}

def isOwnerLatched (a : ℕ) (ownerName : Bytes) : Net σ Bool :=
  fun w => (.ok ((w.latches a).isOwnerLatched ownerName), w)

def isLatched (a : ℕ) (b : RotationBinding) : Net σ Bool := fun w => (.ok ((w.latches a).isLatched b), w)

def isDispatchReady (a : ℕ) (b : RotationBinding) : Net σ Bool := fun w =>
  (.ok ((w.latches a).isDispatchReady b), w)

def registerLatch (a : ℕ) (b : RotationBinding) (dispatchReady : Bool) : Net σ Bool := fun w =>
  let r := (w.latches a).register b dispatchReady
  (.ok r.1, w.setLatches a r.2)

def clearLatch (a : ℕ) (b : RotationBinding) : Net σ Bool := fun w =>
  let r := (w.latches a).clear b
  (.ok r.1, w.setLatches a r.2)

end

/-! ### Capabilities -/

/-- `adapter` is the adapter that made it: its token and its latch registry. -/
structure RotationPublication (P : Platform) where
  id : ℕ
  environment : Str
  bundle : IdentityBundle P
  envelopeBytes : Bytes
  previousState : IdentityState
  expiresAt : ℤ
  adapter : ℕ
  deriving DecidableEq

structure RotationDispatchPermit where
  intent : RotationDispatchIntent
  deriving DecidableEq

structure RotationConfirmation where
  binding : RotationBinding
  stateHash : Bytes
  adapter : ℕ
  deriving DecidableEq, Repr

/-- Its status is always `EXPIRED`. -/
structure RotationDispatchRejection (P : Platform) where
  id : ℕ
  publication : RotationPublication P
  deriving DecidableEq

namespace RotationPublication

variable {P : Platform}

def binding (p : RotationPublication P) : RotationBinding where
  environment := some p.environment
  ownerName := p.bundle.draft.ownerName
  predecessorOwnerPublicKey := p.previousState.ownerPublicKey
  successorOwnerPublicKey := p.bundle.draft.ownerPublicKey
  predecessorStateHash := p.previousState.stateHash
  sequence := p.bundle.draft.sequence
  envelopeHash := P.sha256 p.envelopeBytes

def matchesIntent (p : RotationPublication P) (b : RotationBinding) : Bool := p.binding.checked = b.checked

def matchesBundle (p : RotationPublication P) (b : IdentityBundle P) : Bool :=
  b = p.bundle && b.finalize.toOption = some p.envelopeBytes && b.draft.previousState = some p.previousState &&
    b.draft.isRotation

end RotationPublication

def RotationConfirmation.matchesIntent (c : RotationConfirmation) (b : RotationBinding) : Bool :=
  c.binding.checked = b.checked

def RotationDispatchRejection.matchesIntent {P : Platform} (r : RotationDispatchRejection P) (b : RotationBinding) :
    Bool :=
  r.publication.matchesIntent b

section

variable {σ : Type}

def consume (id : ℕ) : Net σ Bool := fun w =>
  if id ∈ w.consumed then (.ok false, w) else (.ok true, { w with consumed := id :: w.consumed })

def release (id : ℕ) : Net σ Unit := fun w => (.ok (), { w with consumed := w.consumed.filter (· ≠ id) })

def newObject : Net σ ℕ := fun w => (.ok w.fresh, { w with fresh := w.fresh + 1 })

end

end DecentWallet
