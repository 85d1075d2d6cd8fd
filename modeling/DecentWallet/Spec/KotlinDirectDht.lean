import DecentWallet.Lib.Json
import DecentWallet.Spec.KotlinIntent

/-! `AndroidDirectDhtIdentityTransport.kt`: reads and the conditional write of Identity envelopes over pinned DHT peers.
The peers and the clock are an arbitrary oracle: its state `σ` may change with every call. -/

namespace DecentWallet.Kotlin

open WalletError

/-! ### The configuration -/

def whitespace : Str :=
  [0x9, 0xa, 0xb, 0xc, 0xd, 0x1c, 0x1d, 0x1e, 0x1f, 0x20, 0xa0, 0x1680, 0x2000, 0x2001, 0x2002, 0x2003, 0x2004, 0x2005,
    0x2006, 0x2007, 0x2008, 0x2009, 0x200a, 0x2028, 0x2029, 0x202f, 0x205f, 0x3000]

def isBlank (s : Str) : Bool := s.all fun c => decide (c ∈ whitespace)

def slash : ℕ := 47

def peerMarker : Str := str "/p2p/"

def lastIndexOf (s marker : Str) : Option ℕ :=
  ((List.range (s.length + 1)).filter fun i => marker.isPrefixOf (s.drop i)).getLast?

def pinnedPeerId (peer : Str) : Option Str :=
  (lastIndexOf peer peerMarker).bind fun marker =>
    let id := (peer.drop (marker + 5)).takeWhile (· ≠ slash)
    if isBlank id then none else some id

def maxRegistryPeers : ℕ := 16

structure DhtConfigFields where
  registryEnvironment : Str
  registryPeers : List Str
  enableOwnerKeyRotation : Bool
  requestTimeoutMillis : ℤ
  readbackPeer : Option Str
  deriving DecidableEq, Repr

structure DhtConfigFields.Ok (f : DhtConfigFields) : Prop where
  environment : validRegistryEnvironment f.registryEnvironment = true
  peers : f.registryPeers ≠ [] ∧ f.registryPeers.length ≤ maxRegistryPeers
  pinned : ∀ peer ∈ f.registryPeers, isBlank peer = false ∧ peer.head? = some slash ∧ peerMarker <:+: peer
  unique : f.registryPeers.Nodup
  timeout : 1000 ≤ f.requestTimeoutMillis ∧ f.requestTimeoutMillis ≤ 60000
  readback : ∀ peer ∈ f.readbackPeer, isBlank peer = false ∧ peer.head? = some slash ∧ pinnedPeerId peer ≠ none ∧
    ∀ other ∈ f.registryPeers, pinnedPeerId other ≠ pinnedPeerId peer

structure AndroidRegistryDhtConfig extends DhtConfigFields where
  ok : toDhtConfigFields.Ok

namespace AndroidRegistryDhtConfig

def primaryPeer (config : AndroidRegistryDhtConfig) : Str := config.registryPeers.head config.ok.peers.1

def historyPeers (config : AndroidRegistryDhtConfig) : List Str := config.registryPeers ++ config.readbackPeer.toList

end AndroidRegistryDhtConfig

/-! ### Keys -/

def ascii (s : String) : Bytes := (str s).map UInt8.ofNat

def hex (b : Bytes) : Bytes :=
  b.flatMap fun x => [UInt8.ofNat (hexDigit (x.toNat / 16)), UInt8.ofNat (hexDigit (x.toNat % 16))]

/-- `AndroidRegistryDhtKey.identity`; a failed `require` is no wallet exception. -/
def identityKey (C : Primitives) (ownerName : Bytes) : Parse Bytes := do
  reject (ownerName = []) other
  return ascii "/decent-registry/identity/" ++ hex (C.sha256 ownerName)

def historyKey (C : Primitives) (ownerName stateHash : Bytes) : Parse Bytes := do
  reject (ownerName = []) other
  reject (stateHash.length ≠ keyBytes) other
  return ascii "/decent-registry/history/" ++ C.sha256 ownerName ++ stateHash

/-! ### Calls to the peers -/

/-- What a transport throws: the two typed exceptions of a conditional write, or another. -/
inductive TransportFailure where
  | preconditionFailed
  | writeExpired
  | wallet (e : WalletError)
  deriving DecidableEq, Repr

structure AndroidKadDhtRpcClient (σ : Type) where
  getValue : Str → Bytes → σ → Except TransportFailure (Option Bytes) × σ
  putValue : Str → Bytes → Bytes → σ → Except TransportFailure Bool × σ

structure AndroidDirectDhtIdentityTransport (σ : Type) where
  config : AndroidRegistryDhtConfig
  dhtClient : AndroidKadDhtRpcClient σ
  epochSeconds : σ → ℤ × σ

structure DhtPut where
  peer : Str
  key : Bytes
  value : Bytes
  answer : Except TransportFailure Bool

inductive DhtEvent where
  | get (peer : Str) (key : Bytes) (answer : Except TransportFailure (Option Bytes))
  | put (call : DhtPut)
  | clock (now : ℤ)

structure Line (σ : Type) where
  state : σ
  log : List DhtEvent

namespace AndroidDirectDhtIdentityTransport

variable {σ : Type} (T : AndroidDirectDhtIdentityTransport σ)

def getValue (peer : Str) (key : Bytes) : Prog (Line σ) TransportFailure (Option Bytes) := fun w =>
  let r := T.dhtClient.getValue peer key w.state
  (r.1, ⟨r.2, w.log ++ [.get peer key r.1]⟩)

def putValue (peer : Str) (key value : Bytes) : Prog (Line σ) TransportFailure Bool := fun w =>
  let r := T.dhtClient.putValue peer key value w.state
  (r.1, ⟨r.2, w.log ++ [.put ⟨peer, key, value, r.1⟩]⟩)

def readClock : Prog (Line σ) TransportFailure ℤ := fun w =>
  let r := T.epochSeconds w.state
  (.ok r.1, ⟨r.2, w.log ++ [.clock r.1]⟩)

variable (C : Primitives)

/-! ### Reads -/

def readIdentityEnvelopeFromPeer (ownerName : Bytes) (peer : Str) : Prog (Line σ) WalletError (Option Bytes) := do
  let key ← Prog.lift (identityKey C ownerName)
  Prog.mapError (fun _ => identityTransport) (getValue T peer key)

def getIdentityEnvelope (ownerName : Bytes) : Prog (Line σ) WalletError (Option Bytes) :=
  readIdentityEnvelopeFromPeer T C ownerName T.config.primaryPeer

/-- The loop of `getIdentityEnvelopeByHash`; `failed` says whether `lastFailure` is set. -/
def firstValue (key : Bytes) : List Str → Bool → Prog (Line σ) WalletError (Option Bytes)
  | [], failed => do
    Prog.reject failed identityTransport
    return none
  | peer :: peers, failed => do
    match ← Prog.attempt (getValue T peer key) with
    | .ok (some value) => return some value
    | .ok none => firstValue key peers failed
    | .error _ => firstValue key peers true

def getIdentityEnvelopeByHash (ownerName stateHash : Bytes) : Prog (Line σ) WalletError (Option Bytes) := do
  let key ← Prog.lift (historyKey C ownerName stateHash)
  firstValue T key T.config.historyPeers false

def resolve (ownerName envelope : Bytes) : Prog (Line σ) WalletError VerifiedIdentityState :=
  Kotlin.resolve C (getIdentityEnvelopeByHash T C ownerName) ownerName envelope

def readVerifiedCurrent (ownerName : Bytes) : Prog (Line σ) WalletError VerifiedIdentityState := do
  let envelope ← getIdentityEnvelope T C ownerName
  let envelope ← Prog.lift (orRaise identityTransport envelope)
  resolve T C ownerName envelope

/-! ### The conditional write -/

def fanOut (key envelope : Bytes) (expiresAt : ℤ) : List Str → (dispatchStarted acknowledgedByAnyPeer : Bool) →
    Prog (Line σ) TransportFailure Unit
  | [], _, acknowledgedByAnyPeer => Prog.reject (acknowledgedByAnyPeer = false) (.wallet identityTransport)
  | peer :: peers, dispatchStarted, _ => do
    let now ← readClock T
    Prog.reject (expiresAt ≤ now) (if dispatchStarted then .wallet identityTransport else .writeExpired)
    let acknowledged ← putValue T peer key envelope
    Prog.reject (acknowledged = false) (.wallet identityTransport)
    fanOut key envelope expiresAt peers true true

def writeIfCurrent (ownerName envelope expectedHash : Bytes) (expiresAt : ℤ) :
    Prog (Line σ) TransportFailure Unit := do
  let currentState ← Prog.mapError .wallet (readVerifiedCurrent T C ownerName)
  Prog.reject (currentState.stateHash ≠ expectedHash) .preconditionFailed
  let candidateState ← Prog.mapError .wallet (resolve T C ownerName envelope)
  let predecessorHash ← Prog.lift (orRaise (.wallet invalidIdentityState) candidateState.predecessorStateHash)
  let predecessorOwnerKey ← Prog.lift
    (orRaise (.wallet invalidIdentityState) candidateState.predecessorOwnerPublicKey)
  Prog.reject (predecessorHash ≠ expectedHash ∨ predecessorOwnerKey = candidateState.ownerPublicKey) .preconditionFailed
  let freshCurrent ← Prog.mapError .wallet (readVerifiedCurrent T C ownerName)
  Prog.reject (freshCurrent.stateHash ≠ expectedHash) .preconditionFailed
  let now ← readClock T
  Prog.reject (expiresAt ≤ now) .writeExpired
  let key ← Prog.mapError .wallet (Prog.lift (identityKey C ownerName))
  fanOut T key envelope expiresAt T.config.historyPeers false false

/-- The `catch` clauses: the typed exceptions pass, every other becomes a transport exception. -/
def rethrow : TransportFailure → Prog (Line σ) TransportFailure Unit
  | .preconditionFailed => Prog.raise .preconditionFailed
  | .writeExpired => Prog.raise .writeExpired
  | .wallet _ => Prog.raise (.wallet identityTransport)

def putIdentityEnvelopeIfCurrent (ownerName envelope expectedStateHash : Bytes) (expiresAt : ℤ) :
    Prog (Line σ) TransportFailure Unit := do
  Prog.reject (T.config.enableOwnerKeyRotation = false) (.wallet rotationTransportUnavailable)
  Prog.reject (ownerName = [] ∨ expectedStateHash.length ≠ keyBytes ∨ envelope = []) (.wallet invalidIdentityState)
  Prog.tryCatch (writeIfCurrent T C ownerName envelope expectedStateHash expiresAt) rethrow

end AndroidDirectDhtIdentityTransport

end DecentWallet.Kotlin
