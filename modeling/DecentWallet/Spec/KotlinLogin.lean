import DecentWallet.Lib.Base64Url
import DecentWallet.Lib.Json
import DecentWallet.Spec.KotlinHistory

/-! `WalletLoginProofRequest.kt`: the proof that a wallet signs to log in, and its JSON. A `String` is the list of its
code points, where an unpaired surrogate stands for itself. -/

namespace DecentWallet.Kotlin

open WalletError

def maxProofBytes : ℕ := 8 * 1024

def loginProfile : Str := str "decent-wallet-login-v1"

def challengeBytes : ℕ := 32

def strictUtf8 (value : Str) : Parse Bytes := orRaise other (utf8 value)

def parseBase64Url (value : Str) (expectedBytes : ℕ) : Parse Bytes := do
  reject (value = [] ∨ padChar ∈ value ∨ value.all isUrlChar = false) loginProofRejected
  let decoded ← orRaise loginProofRejected (base64UrlDecode value)
  reject (decoded.length ≠ expectedBytes ∨ base64UrlEncode decoded ≠ value) loginProofRejected
  return decoded

def validateFields (profile challenge identityId signature : Str) : Parse Unit := do
  reject (profile ≠ loginProfile) loginProofRejected
  let _ ← parseBase64Url challenge challengeBytes
  let _ ← parseBase64Url signature signatureBytes
  let _ ← strictUtf8 identityId
  return ()

structure WalletLoginProofRequest where
  profile : Str
  challenge : Str
  identityId : Str
  signature : Str
  ok : validateFields profile challenge identityId signature = .ok ()

def WalletLoginProofRequest.make (profile challenge identityId signature : Str) : Parse WalletLoginProofRequest :=
  match h : validateFields profile challenge identityId signature with
  | .ok () => .ok ⟨profile, challenge, identityId, signature, h⟩
  | .error e => .error e

/-! ### Writing -/

/-- A turn of the loop of `writeString`, over one `Char` or a surrogate pair. -/
def writeChar (c : ℕ) : Parse Bytes :=
  if c = 34 then .ok [92, 34]
  else if c = 92 then .ok [92, 92]
  else if c = 8 then .ok [92, 98]
  else if c = 12 then .ok [92, 102]
  else if c = 10 then .ok [92, 110]
  else if c = 13 then .ok [92, 114]
  else if c = 9 then .ok [92, 116]
  else if c < 32 then .ok [92, 117, 48, 48, UInt8.ofNat (hexDigit (c / 16)), UInt8.ofNat (hexDigit (c % 16))]
  else if 0xD800 ≤ c ∧ c < 0xE000 then .error loginProofRejected
  else strictUtf8 [c]

def writeChars : Str → Parse Bytes
  | [] => .ok []
  | c :: value => do
    let first ← writeChar c
    let rest ← writeChars value
    return first ++ rest

def writeString (value : Str) : Parse Bytes := do
  let chars ← writeChars value
  return 34 :: (chars ++ [34])

def writeField (field : Str × Str) : Parse Bytes := do
  let key ← writeString field.1
  let value ← writeString field.2
  return key ++ 58 :: value

def writeFields : List (Str × Str) → Parse Bytes
  | [] => .ok [125]
  | field :: fields => do
    let first ← writeField field
    let rest ← writeFields fields
    return 44 :: (first ++ rest)

def writeObject (field : Str × Str) (fields : List (Str × Str)) : Parse Bytes := do
  let first ← writeField field
  let rest ← writeFields fields
  return 123 :: (first ++ rest)

def requireProofBytes (bytes : Bytes) : Parse Bytes := do
  reject (maxProofBytes < bytes.length) loginProofRejected
  return bytes

def signingBytes (profile challenge identityId : Str) : Parse Bytes := do
  reject (profile ≠ loginProfile) loginProofRejected
  let bytes ← writeObject (str "challenge", challenge) [(str "identity_id", identityId), (str "profile", profile)]
  requireProofBytes bytes

namespace WalletLoginProofRequest

/-- `encode`. -/
def toJsonBytes (proof : WalletLoginProofRequest) : Parse Bytes := do
  validateFields proof.profile proof.challenge proof.identityId proof.signature
  let _ ← signingBytes proof.profile proof.challenge proof.identityId
  let bytes ← writeObject (str "profile", proof.profile)
    [(str "challenge", proof.challenge), (str "identity_id", proof.identityId), (str "signature", proof.signature)]
  requireProofBytes bytes

end WalletLoginProofRequest

/-! ### Parsing -/

inductive JsonToken where
  | startObject
  | endObject
  | fieldName (name : Str)
  | valueString (text : Str)
  | otherToken
  deriving DecidableEq, Repr

/-- What `nextToken` gives one after the other, and whether it throws then instead of reaching the end. -/
structure JsonTokens where
  tokens : List JsonToken
  throws : Bool
  deriving DecidableEq, Repr

/-- The parser of a byte array, with strict duplicate detection. -/
abbrev JsonParser := Bytes → JsonTokens

def memberTokens (members : List (Str × Str)) : List JsonToken :=
  members.flatMap fun p => [.fieldName p.1, .valueString p.2]

/-- The parser is right on the JSON objects that have distinct names and texts as values, if they are no longer than a
proof. -/
def JsonParser.Correct (J : JsonParser) : Prop := ∀ (members : List (Str × Str)) (b : Bytes),
  (members.map Prod.fst).Nodup → utf8 (Json.obj (members.map fun p => (p.1, .str p.2))).text = some b →
    b.length ≤ maxProofBytes → J b = ⟨.startObject :: (memberTokens members ++ [.endObject]), false⟩

/-- The four variables of `parse`; a bit of `seen` is set where the variable is. -/
structure ProofVariables where
  profile : Option Str := none
  challenge : Option Str := none
  identityId : Option Str := none
  signature : Option Str := none

def ProofVariables.assign (v : ProofVariables) (name value : Str) : Parse ProofVariables :=
  if name = str "profile" then do
    reject v.profile.isSome loginProofRejected
    return { v with profile := some value }
  else if name = str "challenge" then do
    reject v.challenge.isSome loginProofRejected
    return { v with challenge := some value }
  else if name = str "identity_id" then do
    reject v.identityId.isSome loginProofRejected
    return { v with identityId := some value }
  else if name = str "signature" then do
    reject v.signature.isSome loginProofRejected
    return { v with signature := some value }
  else .error loginProofRejected

def parseMembers : List JsonToken → ProofVariables → Parse (ProofVariables × List JsonToken)
  | .endObject :: rest, v => .ok (v, rest)
  | .fieldName name :: .valueString value :: rest, v => do
    let v ← v.assign name value
    parseMembers rest v
  | _, _ => .error loginProofRejected

def parseProof : JsonTokens → Parse WalletLoginProofRequest
  | ⟨.startObject :: tokens, throws⟩ => do
    let (v, rest) ← parseMembers tokens {}
    reject (rest ≠ [] ∨ throws = true) loginProofRejected
    let profile ← orRaise loginProofRejected v.profile
    let challenge ← orRaise loginProofRejected v.challenge
    let identityId ← orRaise loginProofRejected v.identityId
    let signature ← orRaise loginProofRejected v.signature
    validateFields profile challenge identityId signature
    WalletLoginProofRequest.make profile challenge identityId signature
  | _ => .error loginProofRejected

def WalletLoginProofRequest.parse (J : JsonParser) (bytes : Bytes) : Parse WalletLoginProofRequest := do
  reject (bytes = [] ∨ maxProofBytes < bytes.length) loginProofRejected
  (parseProof (J bytes)).mapError fun _ => loginProofRejected

end DecentWallet.Kotlin
