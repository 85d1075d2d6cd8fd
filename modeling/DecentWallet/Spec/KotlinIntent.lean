import DecentWallet.Spec.KotlinHistory
import DecentWallet.Spec.Payload

/-! `AndroidIdentityAdapter.kt`: the dispatch intent that a wallet keeps, and the objects that tie the steps of an
owner-key rotation together. Their constructors are internal, so each comes from the code that seals it. -/

namespace DecentWallet.Kotlin

open WalletError

/-! ### The dispatch intent -/

def utf16Length (s : Str) : ℕ := (s.map fun c => if c < 0x10000 then 1 else 2).sum

def registryWhitespace : Str :=
  [0x9, 0xa, 0xb, 0xc, 0xd, 0x20, 0x85, 0xa0, 0x1680, 0x2000, 0x2001, 0x2002, 0x2003, 0x2004, 0x2005, 0x2006, 0x2007,
    0x2008, 0x2009, 0x200a, 0x2028, 0x2029, 0x202f, 0x205f, 0x3000]

def validRegistryEnvironment (value : Str) : Bool :=
  1 ≤ utf16Length value && utf16Length value ≤ 256 && !(value.all fun c => decide (c ∈ registryWhitespace)) &&
    value.all isScalar

structure IntentFields where
  ownerNameBytes : Bytes
  predecessorOwnerPublicKey : Bytes
  successorOwnerPublicKey : Bytes
  predecessorStateHash : Bytes
  sequence : ℤ
  environment : Option Str
  envelopeHash : Bytes
  deriving DecidableEq, Repr

def IntentFields.Ok (f : IntentFields) : Prop :=
  f.ownerNameBytes ≠ [] ∧ f.ownerNameBytes.length ≤ maxEncodedBytes ∧ f.predecessorOwnerPublicKey.length = keyBytes ∧
    f.successorOwnerPublicKey.length = keyBytes ∧ f.predecessorStateHash.length = keyBytes ∧
    f.envelopeHash.length = keyBytes ∧ 0 < f.sequence ∧ (∀ e ∈ f.environment, validRegistryEnvironment e = true) ∧
    utf8Decode f.ownerNameBytes ≠ none

instance (f : IntentFields) : Decidable f.Ok := inferInstanceAs (Decidable (_ ∧ _))

structure OwnerKeyRotationDispatchIntent extends IntentFields where
  ok : toIntentFields.Ok
  deriving DecidableEq

namespace OwnerKeyRotationDispatchIntent

def make (f : IntentFields) : Parse OwnerKeyRotationDispatchIntent :=
  if h : f.Ok then .ok ⟨f, h⟩ else .error invalidIdentityState

def environmentEntry : Option Str → List (Str × PayloadValue)
  | none => []
  | some e => [(str "environment", .str e)]

/-- The entries are in key order. -/
def toPayload (i : OwnerKeyRotationDispatchIntent) : PayloadValue :=
  .map ((str "envelope_hash", .bytes i.envelopeHash) :: (environmentEntry i.environment ++
    [(str "owner_name", .bytes i.ownerNameBytes),
      (str "predecessor_owner_public_key", .bytes i.predecessorOwnerPublicKey),
      (str "predecessor_state_hash", .bytes i.predecessorStateHash),
      (str "sequence", .int i.sequence),
      (str "successor_owner_public_key", .bytes i.successorOwnerPublicKey)]))

theorem toPayload_ordered (i : OwnerKeyRotationDispatchIntent) : i.toPayload.ordered = true := by
  refine PayloadValue.ordered_map_iff.2 ⟨?_, ?_⟩
  · unfold Assoc.Sorted
    rw [← List.pairwise_map (f := Prod.fst) (R := (· < ·))]
    cases i.environment <;> simp [environmentEntry] <;> decide
  · cases i.environment <;> simp [environmentEntry, PayloadValue.ordered]

def expectedKeys : List Str :=
  [str "owner_name", str "predecessor_owner_public_key", str "successor_owner_public_key", str "predecessor_state_hash",
    str "sequence", str "environment", str "envelope_hash"]

/-- The key is there and its value is not a valid environment. -/
def badEnvironment (m : List (Str × PayloadValue)) : Bool :=
  (Assoc.get m (str "environment")).any fun v => !(v.asStr.any validRegistryEnvironment)

/-- `map[key] as? T ?: throw WalletInvalidContainerException()`. -/
def field {α : Type} (as : PayloadValue → Option α) (m : List (Str × PayloadValue)) (key : String) : Parse α :=
  orRaise invalidContainer ((Assoc.get m (str key)).bind as)

def fromPayload : PayloadValue → Parse OwnerKeyRotationDispatchIntent
  | .map m => do
    let keys := (m.map Prod.fst).toFinset
    reject (keys ≠ expectedKeys.toFinset ∧ keys ≠ expectedKeys.toFinset.erase (str "environment")) invalidContainer
    reject (badEnvironment m = true) invalidContainer
    let sequence ← field PayloadValue.asInt m "sequence"
    let ownerNameBytes ← field PayloadValue.asBytes m "owner_name"
    let predecessorOwnerPublicKey ← field PayloadValue.asBytes m "predecessor_owner_public_key"
    let successorOwnerPublicKey ← field PayloadValue.asBytes m "successor_owner_public_key"
    let predecessorStateHash ← field PayloadValue.asBytes m "predecessor_state_hash"
    let envelopeHash ← field PayloadValue.asBytes m "envelope_hash"
    let environment := (Assoc.get m (str "environment")).bind PayloadValue.asStr
    make { ownerNameBytes, predecessorOwnerPublicKey, successorOwnerPublicKey, predecessorStateHash, sequence,
           environment, envelopeHash }
  | _ => .error invalidContainer

end OwnerKeyRotationDispatchIntent

/-! ### Publications, permits, confirmations and rejections -/

/-- `id` is the object's identity. -/
structure OwnerKeyRotationPublication where
  id : ℕ
  intent : OwnerKeyRotationDispatchIntent
  envelopeBytes : Bytes
  verifiedCandidateState : VerifiedIdentityState
  expiresAt : ℤ
  deriving DecidableEq

structure OwnerKeyRotationDispatchPermit where
  id : ℕ
  intent : OwnerKeyRotationDispatchIntent
  publication : OwnerKeyRotationPublication
  deriving DecidableEq

structure OwnerKeyRotationConfirmation where
  intent : OwnerKeyRotationDispatchIntent
  stateHash : Bytes
  deriving DecidableEq

inductive OwnerKeyRotationDispatchStatus where
  | confirmed
  | unknown
  | stale
  | expired
  | failed
  deriving DecidableEq, Repr

structure OwnerKeyRotationDispatchRejection where
  id : ℕ
  intent : OwnerKeyRotationDispatchIntent
  permit : OwnerKeyRotationDispatchPermit
  status : OwnerKeyRotationDispatchStatus
  deriving DecidableEq

end DecentWallet.Kotlin
