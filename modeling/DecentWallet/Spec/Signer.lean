import DecentWallet.Spec.Storage

/-! `decent_wallet/signer.py`: the updates a signer capability accepts, and its one signature. -/

namespace DecentWallet

open Cbor Raised

/-! ### Accepted updates -/

/-- The checks shared with the adapter, under the signer's one error. -/
def signingInput {α : Type} (x : Except IdentityError α) : Except Raised α := x.mapError fun _ => invalidSigningInput

def signerIdMaxBytes : ℕ := 256

def requireEntryId : Value → Except Raised Str
  | .text s => do
    reject (s = []) invalidSigningInput
    return s
  | _ => .error invalidSigningInput

def requireKey (v : Value) : Except Raised Bytes := signingInput (requireBytes (some keyLength) v)

/-- The loop over the signer entries, with the ones already read. An id that is no valid text makes
`encode` raise. -/
def readSignerEntries : List Value → List (Str × Bytes) → Except Raised (List (Str × Bytes))
  | [], seen => .ok seen
  | entry :: rest, seen => do
    let entry ← signingInput (requireExactKeys [1, 2] entry)
    let signerId ← requireEntryId (← signingInput (item entry 1))
    let idBytes ← orRaise signerError (utf8 signerId)
    reject (signerIdMaxBytes < idBytes.length) invalidSigningInput
    reject (∃ p ∈ seen.getLast?, bytesLt (utf8Raw p.1) idBytes = false) invalidSigningInput
    let publicKey ← requireKey (← signingInput (item entry 2))
    reject (signerId ∈ seen.map Prod.fst ∨ publicKey ∈ seen.map Prod.snd) invalidSigningInput
    readSignerEntries rest (seen ++ [(signerId, publicKey)])

def requireEntries : Value → Except Raised (List Value)
  | .array xs => do
    reject (xs = []) invalidSigningInput
    return xs
  | _ => .error invalidSigningInput

/-- `signer._validate_authorization`. -/
def validateSignerAuthorization (v : Value) (signerPublicKey : Bytes) : Except Raised Unit := do
  let a ← signingInput (requireExactKeys [1, 2, 3, 4, 5, 6, 7] v)
  reject ((← signingInput (requireUint (← signingInput (item a 1)))) ≠ 1) invalidSigningInput
  reject ((← signingInput (requireUint (← signingInput (item a 2)))) ≠ 1) invalidSigningInput
  let operation ← signingInput (requireUint (← signingInput (item a 3)))
  reject (operation ∉ [1, 2, 3, 4, 5]) invalidSigningInput
  let _ ← signingInput (requireUint (← signingInput (item a 4)))
  let threshold ← signingInput (requireUint (← signingInput (item a 5)))
  let entries ← requireEntries (← signingInput (item a 6))
  let signers ← readSignerEntries entries []
  reject (threshold < 1 ∨ entries.length < threshold) invalidSigningInput
  let _ ← requireKey (← signingInput (item a 7))
  reject (signerPublicKey ∉ signers.map Prod.snd ∧ operation ∉ [3, 5]) invalidSigningInput

def requireUpdateKeys : Value → Except Raised Dict
  | .map m => do
    reject (m.any (fun p => !isInt p.1) ∨ ¬(keySet m [1, 2, 3] ∨ keySet m [1, 2, 3, 4])) invalidSigningInput
    return m
  | _ => .error invalidSigningInput

def requireEmptyDict : Value → Except Raised Unit
  | .map [] => .ok ()
  | _ => .error invalidSigningInput

def checkSigner (authorization : Option Value) (ownerPublicKey signerPublicKey : Bytes) : Except Raised Unit :=
  match authorization with
  | some v => validateSignerAuthorization v signerPublicKey
  | none => reject (ownerPublicKey ≠ signerPublicKey) invalidSigningInput

def validateIdentityUpdate (P : Platform) (data signerPublicKey : Bytes) : Except Raised Unit := do
  let decoded ← requireUpdateKeys (← signingInput (requireCanonical P data))
  let record ← signingInput (requireExactKeys [1, 2] (← signingInput (item decoded 1)))
  let ownerName ← signingInput (requireBytes none (← signingInput (item record 1)))
  reject (ownerName = []) invalidSigningInput
  let ownerPublicKey ← requireKey (← signingInput (item record 2))
  requireEmptyDict (← signingInput (item decoded 2))
  let _ ← signingInput (requireUint (← signingInput (item decoded 3)))
  checkSigner (pyGet decoded 4) ownerPublicKey signerPublicKey

/-! ### Capabilities -/

section

variable {σ : Type} (P : Platform) (C : Crypto) (M : Machine σ)

def Signer.invalidated (s : Signer) : Signer := { s with active := false }

namespace Host

/-- `capability.invalidate()` for each of `ids`. -/
def invalidate (h : Host σ) (ids : List ℕ) : Host σ :=
  { h with signers := fun j => if j ∈ ids then (h.signers j).map Signer.invalidated else h.signers j }

/-- `on_invalidate`: the wallet forgets the capability. -/
def discard (h : Host σ) (id : ℕ) : Host σ :=
  match h.signers id with
  | none => h
  | some s =>
    let session := h.sessions s.wallet
    h.setSession s.wallet { session with capabilities := session.capabilities.filter (· ≠ id) }

end Host

/-- `SignerCapability.invalidate`, also called by the capability's timer. -/
def invalidateSigner (id : ℕ) : Proc σ Unit := Prog.modify fun h => (h.invalidate [id]).discard id

def signerOf (id : ℕ) : Proc σ Signer := fun h => (orRaise signerUnavailable (h.signers id), h)

def assertActive (id : ℕ) : Proc σ Signer := do
  let s ← signerOf id
  Prog.reject (s.active = false) signerUnavailable
  if s.expiresAt ≤ (← ask M.monotonic) then
    invalidateSigner id
    Prog.raise signerUnavailable
  else return s

def signUpdate (s : Signer) (update : Bytes) : Except Raised Bytes := do
  validateIdentityUpdate P update s.publicKey
  let signature ← orRaise signerError (C.sign s.seed (P.sha256 update))
  reject (signature.length ≠ signatureLength) signerError
  return signature

/-- `sign_identity_update`: the capability is used up whether or not it signs. -/
def signIdentityUpdate (id : ℕ) (update : Bytes) : Proc σ Bytes := do
  let s ← assertActive M id
  invalidateSigner id
  Prog.lift (signUpdate P C s update)

end

end DecentWallet
