import DecentWallet.Spec.Envelope

/-! The transport a `RegistryAdapter` talks to, and the world its calls change. The transport is an
arbitrary oracle: its state `σ` may change with every call, so it may answer the same question
differently each time. -/

namespace DecentWallet

open Cbor IdentityError

/-- What a read method returns: `None`, bytes, or an object that is neither. -/
inductive Answer where
  | nothing
  | bytes (b : Bytes)
  | junk
  deriving DecidableEq, Repr

abbrev Fetch := Option Answer

inductive PutOutcome where
  | returned
  | stale
  | expired
  | raised
  deriving DecidableEq, Repr

/-- `getattr(transport, "registry_environment", ..)`. -/
inductive EnvironmentAttribute where
  | absent
  | str (s : Str)
  | other
  | raised
  deriving DecidableEq, Repr

structure Transport (σ : Type) where
  getIdentityEnvelope : Bytes → σ → Fetch × σ
  getIdentityEnvelopeByHash : Bytes → Bytes → σ → Fetch × σ
  getRemoteIdentityEnvelope : Bytes → σ → Fetch × σ
  putIdentityEnvelope : Bytes → Bytes → Option Bytes → ℤ → σ → PutOutcome × σ
  registryEnvironment : σ → EnvironmentAttribute × σ
  /-- `supports_owner_key_rotation is True` and the remote read is callable. -/
  rotationAvailable : σ → Bool × σ
  time : σ → ℤ × σ

/-- The fields that tie a latch, a permit, a publication, a confirmation and a rejection together. -/
structure RotationBinding where
  environment : Option Str
  ownerName : Bytes
  predecessorOwnerPublicKey : Bytes
  successorOwnerPublicKey : Bytes
  predecessorStateHash : Bytes
  sequence : ℕ
  envelopeHash : Bytes
  deriving DecidableEq, Repr

/-- A transport call with its answer, and the adapter that made it. -/
inductive Event where
  | read (adapter : ℕ) (ownerName : Bytes) (answer : Fetch)
  | readByHash (adapter : ℕ) (ownerName stateHash : Bytes) (answer : Fetch)
  | readRemote (adapter : ℕ) (ownerName : Bytes) (answer : Fetch)
  | put (adapter : ℕ) (ownerName envelope : Bytes) (expected : Option Bytes) (expiresAt : ℤ)
      (outcome : PutOutcome)
  | environment (adapter : ℕ) (answer : EnvironmentAttribute)
  deriving DecidableEq, Repr

/-- One thing an adapter did: a transport call, a look at the clock, or a key given to the replay store, with the state
the store was in. -/
inductive Moment (σ : Type) where
  | call (e : Event)
  | clock (adapter : ℕ) (now : ℤ)
  | consume (adapter : ℕ) (key : Bytes) (state : σ) (answer : Option Bool)

/-- `_RotationLatchRegistry._bindings`. -/
abbrev Latches := Bytes → Option (RotationBinding × Bool)

structure World (σ : Type) where
  state : σ
  log : List Event
  /-- All that the adapters did so far, oldest first. -/
  trail : List (Moment σ)
  latches : ℕ → Latches
  /-- The one-use capabilities that have been used, by object identity. -/
  consumed : List ℕ
  fresh : ℕ

structure Adapter (σ : Type) where
  id : ℕ
  transport : Transport σ
  registryEnvironment : Option Str
  /-- `ReplayNonceStore.consume`; a call that raised is `none`. -/
  replayStore : Bytes → σ → Option Bool × σ

abbrev Net (σ : Type) := Prog (World σ) IdentityError

section

variable {σ : Type} (A : Adapter σ)

def World.record (w : World σ) (s : σ) (e : Event) : World σ :=
  { w with state := s, log := w.log ++ [e], trail := w.trail ++ [.call e] }

def getIdentityEnvelope (ownerName : Bytes) : Net σ Fetch := fun w =>
  let r := A.transport.getIdentityEnvelope ownerName w.state
  (.ok r.1, w.record r.2 (.read A.id ownerName r.1))

def getIdentityEnvelopeByHash (ownerName stateHash : Bytes) : Net σ Fetch := fun w =>
  let r := A.transport.getIdentityEnvelopeByHash ownerName stateHash w.state
  (.ok r.1, w.record r.2 (.readByHash A.id ownerName stateHash r.1))

def getRemoteIdentityEnvelope (ownerName : Bytes) : Net σ Fetch := fun w =>
  let r := A.transport.getRemoteIdentityEnvelope ownerName w.state
  (.ok r.1, w.record r.2 (.readRemote A.id ownerName r.1))

def putIdentityEnvelope (ownerName envelope : Bytes) (expected : Option Bytes) (expiresAt : ℤ) :
    Net σ PutOutcome := fun w =>
  let r := A.transport.putIdentityEnvelope ownerName envelope expected expiresAt w.state
  (.ok r.1, w.record r.2 (.put A.id ownerName envelope expected expiresAt r.1))

def readTime : Net σ ℤ := fun w =>
  let r := A.transport.time w.state
  (.ok r.1, { w with state := r.2, trail := w.trail ++ [.clock A.id r.1] })

def rotationTransportAvailable : Net σ Bool := fun w =>
  let r := A.transport.rotationAvailable w.state
  (.ok r.1, { w with state := r.2 })

/-- `_rotation_environment_matches`; the transport is asked only when the adapter itself agrees. -/
def rotationEnvironmentMatches (environment : Option Str) : Net σ Bool := fun w =>
  if environment.isSome ∧ environment = A.registryEnvironment then
    let r := A.transport.registryEnvironment w.state
    (.ok (match r.1 with
      | .absent => true
      | .str s => some s == environment
      | .other => false
      | .raised => false), w.record r.2 (.environment A.id r.1))
  else (.ok false, w)

end

/-! ### Reading a state with its history -/

section

variable (P : Platform) {σ : Type} (A : Adapter σ)

/-- The authorization a version-1 envelope shows before it is parsed; a `True` or `1.0` key is also
found by `value.get(1)`. -/
def peekAuthorization (envelope : Bytes) : Except IdentityError (Option Authorization) := do
  match ← requireCanonical P envelope with
  | .map m =>
    match pyGet m 1, pyGet m 2 with
    | some (.int 1), some (.bytes update) => return (← decodeSignedUpdate P update).authorization
    | _, _ => return none
  | _ => return none

def linkAuthorization (a : Option Authorization) : Option Authorization :=
  a.filter fun a => a.operation ∈ [2, 3, 4, 5]

def fetchPredecessor (ownerName : Bytes) (rotationEnvironment : Option Str) (a : Authorization) :
    Net σ Bytes := do
  if rotationEnvironment.isSome then
    Prog.reject ((← rotationEnvironmentMatches A rotationEnvironment) = false) invalidIdentityState
  match ← getIdentityEnvelopeByHash A ownerName a.predecessor with
  | none => Prog.raise transportFailure
  | some .nothing => Prog.raise invalidIdentityState
  -- an object that is no byte string is refused by `_require_canonical`
  | some .junk => Prog.raise invalidIdentityState
  | some (.bytes b) => return b

/-- The walk to the anchor with `remaining` lookups left. `chain` holds the envelopes still to be
replayed, oldest first. -/
def collectHistory (ownerName : Bytes) (rotationEnvironment : Option Str) :
    ℕ → List Bytes → Bytes → Net σ (IdentityState × List Bytes)
  | remaining, chain, current => do
    match linkAuthorization (← Prog.lift (peekAuthorization P current)) with
    | none => return (← Prog.lift (parseIdentityEnvelope P ownerName current none), chain)
    | some a =>
      match remaining with
      | 0 => Prog.raise invalidIdentityState
      | remaining + 1 => do
        let predecessor ← fetchPredecessor A ownerName rotationEnvironment a
        collectHistory ownerName rotationEnvironment remaining (current :: chain) predecessor

def replay (ownerName : Bytes) (state : IdentityState) (chain : List Bytes) :
    Except IdentityError IdentityState :=
  chain.foldlM (fun s e => parseIdentityEnvelope P ownerName e (some s)) state

def parseStateWithHistory (ownerName envelope : Bytes) (rotationEnvironment : Option Str) :
    Net σ IdentityState := do
  let (state, chain) ← collectHistory P A ownerName rotationEnvironment maxPredecessorDepth [] envelope
  Prog.lift (replay P ownerName state chain)

def readState (ownerName : Bytes) : Net σ (Option IdentityState) := do
  let ownerName ← Prog.lift (validateOwnerName ownerName)
  match ← getIdentityEnvelope A ownerName with
  | none => Prog.raise transportFailure
  | some .nothing => return none
  | some .junk => Prog.raise invalidIdentityState
  | some (.bytes envelope) => return some (← parseStateWithHistory P A ownerName envelope none)

end

end DecentWallet
