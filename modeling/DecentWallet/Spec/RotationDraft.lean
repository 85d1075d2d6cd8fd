import DecentWallet.Spec.Submit

/-! `RegistryAdapter.create_owner_key_rotation_draft`. -/

namespace DecentWallet

open Cbor IdentityError

/-- `entry[1].encode("utf-8")`, `none` where it raises. -/
def entryKey (entry : Value) : Option Bytes :=
  let signerId := match entry with
    | .map m => pyGet m 1
    | .array xs => xs[1]?
    | .text s => s[1]?.map fun c => .text [c]
    | _ => none
  match signerId with
  | some (.text s) => utf8 s
  | _ => none

def sortEntries (entries : List Value) : Option (List Value) := do
  let keyed ← entries.mapM fun entry => (entryKey entry).map fun key => (key, entry)
  return (keyed.insertionSort fun a b => bytesLe a.1 b.1 = true).map Prod.snd

def rotationGovernance (previous : IdentityState) (successorSignerSet : Option (List Value)) :
    Except IdentityError (Value × Value × List Value) :=
  if previous.signerSet ≠ [] then do
    reject successorSignerSet.isSome invalidIdentityRequest
    return ((previous.generation.map fun n => Value.int n).getD .null,
      (previous.threshold.map fun n => Value.int n).getD .null, previous.signerSet.map signerValue)
  else do
    let entries ← orRaise invalidIdentityRequest successorSignerSet
    let entries ← orRaise invalidIdentityRequest (sortEntries entries)
    return (.int 1, .int 2, entries)

variable {P : Platform} {σ : Type} (A : Adapter σ)

def IdentityDraft.create (ownerName ownerPublicKey : Bytes) (sequence : ℕ) (authorization : Option Value)
    (previousStateEnvelope : Option Bytes) (previousStateHistory : List Bytes) :
    Except IdentityError (IdentityDraft P) := do
  let update ← buildIdentityUpdate P ownerName ownerPublicKey sequence authorization
  make update previousStateEnvelope previousStateHistory

def createOwnerKeyRotationDraft (ownerName successorOwnerPublicKey : Bytes) (successorSignerSet : Option (List Value)) :
    Net σ (IdentityDraft P) := do
  let ownerName ← Prog.lift (validateOwnerName ownerName)
  Prog.reject ((← isOwnerLatched A.id ownerName) = true) invalidIdentityRequest
  Prog.reject (successorOwnerPublicKey.length ≠ keyLength) invalidIdentityRequest
  let previous ← readState P A ownerName
  let previous ← Prog.lift (orRaise invalidIdentityRequest previous)
  Prog.reject (successorOwnerPublicKey = previous.ownerPublicKey) invalidIdentityRequest
  let (epoch, threshold, signerEntries) ← Prog.lift (rotationGovernance previous successorSignerSet)
  Prog.lift (IdentityDraft.create ownerName successorOwnerPublicKey (previous.sequence + 1)
    (some (dict [.int 1, .int 1, .int 5, epoch, threshold, .array signerEntries, .bytes previous.stateHash]))
    (some previous.envelopeBytes) previous.predecessorEnvelopes)

end DecentWallet
